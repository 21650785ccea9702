import DemandPaging.Proofs.Fault

namespace DemandPaging

namespace AddressSpace

/-- What a fault that is served does. A page that is mapped already stays as it is. Else it is
mapped, and it may be written in its entry if the region that decides about it can be written. -/
inductive Touches (page : PageNumber) :
    AddressSpace × FramePool → AddressSpace × FramePool → Prop
  | again {t : AddressSpace × FramePool} (hmapped : t.1.table.contains page = true) :
      Touches page t t
  | first {space : AddressSpace} {pool next : FramePool} {region : Region} {entry : PageEntry}
      (hunmapped : space.table.contains page = false)
      (hdeciding : Region.deciding? space.regions page = some region)
      (hdirty : entry.isDirty = region.permissions.writable)
      (hallocations : next.allocations = pool.allocations + 1) :
      Touches page (space, pool) ({ space with table := space.table.mapping page entry }, next)

theorem Touches.pool {page : PageNumber} {t next : AddressSpace × FramePool}
    (h : Touches page t next) : next.1.table.pool = t.1.table.pool := by
  cases h with
  | again hmapped => rfl
  | first hunmapped hdeciding hdirty hallocations => exact PageTable.pool_mapping _ _ _

theorem Touches.regions {page : PageNumber} {t next : AddressSpace × FramePool}
    (h : Touches page t next) : next.1.regions = t.1.regions := by
  cases h with
  | again hmapped => rfl
  | first hunmapped hdeciding hdirty hallocations => rfl

theorem Touches.loading {page : PageNumber} {t next : AddressSpace × FramePool}
    (h : Touches page t next) : next.1.loading = t.1.loading := by
  cases h with
  | again hmapped => rfl
  | first hunmapped hdeciding hdirty hallocations => rfl

theorem Touches.stackBase {page : PageNumber} {t next : AddressSpace × FramePool}
    (h : Touches page t next) : next.1.stackBase = t.1.stackBase := by
  cases h with
  | again hmapped => rfl
  | first hunmapped hdeciding hdirty hallocations => rfl

/-- How a fault for a page ends, with what it leaves of the space and its pool. -/
inductive Settles (page : PageNumber) (t : AddressSpace × FramePool) :
    Except Stop Unit → AddressSpace × FramePool → Prop
  | served {next : AddressSpace × FramePool} (address : VirtualAddress)
      (haddress : address.pageNumber = page) (htouches : Touches page t next) :
      Settles page t (.ok ()) next
  | refused (reason : Refusal) : Settles page t (.error (.refused reason)) t
  | short (first : FirstIndex) : Settles page t (.error (.refused .outOfMemory))
      ({ t.1 with table := t.1.table.withBlock first }, t.2)

end AddressSpace

namespace Context

variable {n : Nat} {processor : Processor n} {space : AddressSpace} {pool : FramePool}
  {owned : List PhysicalAddress}

theorem settles_handleFault (hsame : processor.cache = processor.interrupts)
    (hbacked : PageTable.Backed owned (space.table, pool)) (machines : Machines n)
    (access : Access) (word : UInt64) :
    ∃ next, (handleFault processor access word (some (space, pool), machines)).state.1 =
        some next ∧
      AddressSpace.Settles ⟨word / Layout.pageBytes⟩ (space, pool)
        (handleFault processor access word (some (space, pool), machines)).result next := by
  by_cases hdenied : Denied (some (space, pool)) access word
  · obtain ⟨events, hfault⟩ := handleFault_of_denied processor machines hdenied
    rw [hfault]
    exact ⟨_, rfl, .refused _⟩
  · obtain ⟨address, region, hgranted⟩ := granted_of_not_denied hdenied
    have hpage := page_of_granted hgranted
    cases hmapped : space.table.contains address.pageNumber with
    | true =>
        obtain ⟨entry, hentry⟩ := Option.isSome_iff_exists.mp hmapped
        obtain ⟨events, hfault⟩ := handleFault_of_mapped machines hgranted pool hsame hentry
        rw [hfault]
        exact ⟨_, rfl, .served address hpage (.again (hpage ▸ hmapped))⟩
    | false =>
        rcases Nat.lt_or_eq_of_le hbacked.handedOut.length_le with hroom | hfull
        · obtain ⟨frame, next, events, hresolve, -, hchange⟩ := AddressSpace.resolve_of_room
            hgranted.deciding hgranted.allowed hbacked.wellFormed hbacked.handedOut hmapped hroom
          obtain ⟨seen, hserve⟩ := serve_of_ok machines hsame hresolve
          rw [handleFault_of_granted processor machines hgranted, hserve]
          refine ⟨_, rfl, .served address hpage ?_⟩
          rw [← hpage]
          exact .first hmapped hgranted.deciding (PageEntry.isDirty_fresh _ _) hchange.allocations
        · obtain ⟨events, hfault⟩ := handleFault_of_full processor machines hgranted hbacked hmapped
            hfull
          rw [hfault]
          exact ⟨_, rfl, .short _⟩

theorem settles_handleRawFault (hsame : processor.cache = processor.interrupts)
    (hbacked : PageTable.Backed owned (space.table, pool)) (machines : Machines n)
    (code : UInt32) (word : UInt64) :
    ∃ next, (handleRawFault processor code word (some (space, pool), machines)).state.1 =
        some next ∧
      AddressSpace.Settles ⟨word / Layout.pageBytes⟩ (space, pool)
        (handleRawFault processor code word (some (space, pool), machines)).result next := by
  rw [handleRawFault]
  cases Access.ofCode code with
  | ok access => exact settles_handleFault hsame hbacked machines access word
  | error reason => exact ⟨_, rfl, .refused _⟩

theorem handleFault_of_absent (processor : Processor n) (machines : Machines n) (access : Access)
    (word : UInt64) :
    ∃ reason events, handleFault processor access word (none, machines) =
      ⟨.error (.refused reason), (none, machines), events⟩ := by
  obtain ⟨events, hfault⟩ := handleFault_of_denied processor machines
    (.inr (.inr (.inl rfl)) : Denied none access word)
  exact ⟨_, events, hfault⟩

theorem handleRawFault_of_absent (processor : Processor n) (machines : Machines n) (code : UInt32)
    (word : UInt64) :
    ∃ reason events, handleRawFault processor code word (none, machines) =
      ⟨.error (.refused reason), (none, machines), events⟩ := by
  rw [handleRawFault]
  cases Access.ofCode code with
  | ok access => exact handleFault_of_absent processor machines access word
  | error reason => exact ⟨_, _, rfl⟩

end Context

end DemandPaging
