import DemandPaging.Proofs.Conservation
import DemandPaging.Proofs.Machine
import DemandPaging.Proofs.Region

namespace DemandPaging

namespace Context

/-- The faults that are denied, in a context, for a kind of access and an address. Reading is
allowed by every region. -/
def Denied (context : Context) (access : Access) (address : UInt64) : Prop :=
  access = .readOnlyViolation ∨ address = 0 ∨ context = none ∨ 0x100000000 ≤ address.toNat ∨
    ∃ space pool, context = some (space, pool) ∧
      ((∀ region, ¬ Region.Decides space.regions (address.toNat / Layout.pageSize) region) ∨
        ∃ region, Region.Decides space.regions (address.toNat / Layout.pageSize) region ∧
          (access = .write ∧ region.permissions.writable = false ∨
            access = .execute ∧ region.permissions.executable = false))

/-- A page is touched for the first time, and its pool has handed out as many frames as it may. -/
def Exhausted (context : Context) (address : UInt64) : Prop :=
  ∃ space pool, context = some (space, pool) ∧
    space.table.contains ⟨address / Layout.pageBytes⟩ = false ∧ pool.outstanding = pool.limit

/-- A fault that a region of a space allows. -/
structure Granted (space : AddressSpace) (access : Access) (word : UInt64)
    (address : VirtualAddress) (region : Region) : Prop where
  word_eq : address.word = word
  word_ne : word ≠ 0
  access_ne : access ≠ .readOnlyViolation
  deciding : Region.deciding? space.regions address.pageNumber = some region
  allowed : access.allowedBy region.permissions = true

theorem allowedBy_eq_false_iff {access : Access} (haccess : access ≠ .readOnlyViolation)
    (permissions : Permissions) :
    access.allowedBy permissions = false ↔
      access = .write ∧ permissions.writable = false ∨
        access = .execute ∧ permissions.executable = false := by
  cases access with
  | read => simp [Access.allowedBy]
  | write => simp [Access.allowedBy]
  | execute => simp [Access.allowedBy]
  | readOnlyViolation => exact absurd rfl haccess

theorem toNat_pageNumber {word : UInt64} {address : VirtualAddress} (h : address.word = word) :
    address.pageNumber.number.toNat = word.toNat / Layout.pageSize := by
  rw [address.toNat_pageNumber, h]

theorem exists_granted {context : Context} {access : Access} {word : UInt64}
    (h : ¬ Denied context access word) :
    ∃ space pool address region, context = some (space, pool) ∧
      Granted space access word address region := by
  simp only [Denied, not_or] at h
  obtain ⟨haccess, hword, hcontext, hbound, hregion⟩ := h
  rcases context with - | ⟨space, pool⟩
  · exact absurd rfl hcontext
  have huser : VirtualAddress.ofWord? word = some ⟨word.toUInt32⟩ := by
    rw [VirtualAddress.ofWord?,
      if_pos ((Layout.isUserAddress_iff word).mpr (Nat.lt_of_not_le hbound))]
  have haddress := VirtualAddress.ofWord?_eq_some_iff.mp huser
  refine ⟨space, pool, ⟨word.toUInt32⟩, ?_⟩
  rcases AddressSpace.denied_or_granted space access
    (VirtualAddress.pageNumber ⟨word.toUInt32⟩) with hdenied | ⟨region, hdeciding, hallowed⟩
  · refine absurd ⟨space, pool, rfl, ?_⟩ hregion
    rw [← toNat_pageNumber haddress]
    cases hdeciding : Region.deciding? space.regions
      (VirtualAddress.pageNumber ⟨word.toUInt32⟩) with
    | none => exact .inl (Region.deciding?_eq_none_iff.mp hdeciding)
    | some region =>
        exact .inr ⟨region, Region.deciding?_eq_some_iff.mp hdeciding,
          (allowedBy_eq_false_iff haccess _).mp (hdenied region hdeciding)⟩
  · exact ⟨region, rfl, haddress, hword, haccess, hdeciding, hallowed⟩

theorem Granted.not_denied {space : AddressSpace} {pool : FramePool} {access : Access}
    {word : UInt64} {address : VirtualAddress} {region : Region}
    (h : Granted space access word address region) : ¬ Denied (some (space, pool)) access word := by
  have hdecides := Region.deciding?_eq_some_iff.mp h.deciding
  rw [toNat_pageNumber h.word_eq] at hdecides
  rintro (haccess | hword | hcontext | hbound | ⟨other, another, hsome, hregion⟩)
  · exact h.access_ne haccess
  · exact h.word_ne hword
  · contradiction
  · rw [← h.word_eq] at hbound
    exact Nat.not_le_of_lt address.toNat_word_lt hbound
  · obtain ⟨rfl, rfl⟩ := Prod.mk.inj (Option.some.inj hsome)
    rcases hregion with hnone | ⟨found, hfound, hkind⟩
    · exact hnone region hdecides
    · rw [← toNat_pageNumber h.word_eq, ← Region.deciding?_eq_some_iff, h.deciding] at hfound
      obtain rfl := Option.some.inj hfound
      have hdenied := (allowedBy_eq_false_iff h.access_ne region.permissions).mpr hkind
      rw [h.allowed] at hdenied
      contradiction

/-- A fault is either denied or granted by the region that decides about its page. -/
theorem not_denied_iff {context : Context} {access : Access} {word : UInt64} :
    ¬ Denied context access word ↔
      ∃ space pool address region, context = some (space, pool) ∧
        Granted space access word address region := by
  constructor
  · exact exists_granted
  · rintro ⟨space, pool, address, region, rfl, hgranted⟩
    exact hgranted.not_denied

theorem granted_of_not_denied {space : AddressSpace} {pool : FramePool} {access : Access}
    {word : UInt64} (h : ¬ Denied (some (space, pool)) access word) :
    ∃ address region, Granted space access word address region := by
  obtain ⟨_, _, address, region, hcontext, hgranted⟩ := not_denied_iff.mp h
  obtain ⟨rfl, rfl⟩ := Prod.mk.inj (Option.some.inj hcontext)
  exact ⟨address, region, hgranted⟩

theorem page_of_granted {space : AddressSpace} {access : Access} {word : UInt64}
    {address : VirtualAddress} {region : Region} (h : Granted space access word address region) :
    address.pageNumber = ⟨word / Layout.pageBytes⟩ := by
  rw [← h.word_eq]
  rfl

section HandleFault

variable {n : Nat} (processor : Processor n) (machines : Machines n) {context : Context}
  {access : Access} {word : UInt64}

theorem serve_of_error {page : PageNumber} {t next : AddressSpace × FramePool} {reason : Stop}
    {events : List Event}
    (hresolve : AddressSpace.resolve access page t = ⟨.error reason, next, events⟩) :
    serve processor access page (t, machines) = ⟨.error reason, (next, machines), events⟩ := by
  refine Action.bind_of_error ?_
  rw [Action.run_first, hresolve]

theorem serve_of_ok {processor : Processor n} (hsame : processor.cache = processor.interrupts)
    {page : PageNumber} {t next : AddressSpace × FramePool} {mapping : Mapping}
    {events : List Event}
    (hresolve : AddressSpace.resolve access page t = ⟨.ok mapping, next, events⟩) :
    ∃ seen, serve processor access page (t, machines) =
      ⟨.ok (), (next, machines.put processor.cache ((machines.get processor.cache).place mapping)),
        seen⟩ := by
  obtain ⟨seen, hinstall⟩ := Processor.install_of_same hsame mapping machines
  have hfirst : Action.first (AddressSpace.resolve access page) (t, machines) =
      ⟨.ok mapping, (next, machines), events⟩ := by
    rw [Action.run_first, hresolve]
  refine ⟨events ++ seen, (Action.bind_of_ok hfirst).trans ?_⟩
  rw [Action.run_second, hinstall]
  rfl

theorem handleFault_of_denied (h : Denied context access word) :
    ∃ events, handleFault processor access word (context, machines) =
      ⟨.error (.refused .protectionFault), (context, machines), events⟩ := by
  by_cases haccess : access = .readOnlyViolation
  · refine ⟨[.logged (.faulted (.readOnlyPage word))], ?_⟩
    rw [handleFault, if_pos haccess]
    rfl
  · by_cases hword : word = 0
    · refine ⟨[.logged (.faulted .nullAddress)], ?_⟩
      rw [handleFault, if_neg haccess, if_pos hword]
      rfl
    · rw [handleFault, if_neg haccess, if_neg hword]
      rcases context with - | ⟨space, pool⟩
      · exact ⟨[.logged (.faulted (.noSpace word))], rfl⟩
      · cases haddress : VirtualAddress.ofWord? word with
        | none => exact ⟨[.logged (.faulted (.outsideSpace word))], rfl⟩
        | some address =>
            rcases AddressSpace.denied_or_granted space access address.pageNumber with
              hdenied | ⟨region, hdeciding, hallowed⟩
            · obtain ⟨events, hresolve⟩ := AddressSpace.resolve_of_denied pool hdenied
              refine ⟨events, ?_⟩
              simp only [Action.ifPresent, serve_of_error processor machines hresolve]
            · have hgranted : Granted space access word address region :=
                ⟨VirtualAddress.ofWord?_eq_some_iff.mp haddress, hword, haccess, hdeciding,
                  hallowed⟩
              exact absurd h (not_denied_iff.mpr ⟨space, pool, address, region, rfl, hgranted⟩)

theorem not_denied_of_served {processor : Processor n} {machines : Machines n}
    (hserved : (handleFault processor access word (context, machines)).result = .ok ()) :
    ¬ Denied context access word := by
  intro hdenied
  obtain ⟨events, hfault⟩ := handleFault_of_denied processor machines hdenied
  rw [hfault] at hserved
  cases hserved

variable {space : AddressSpace} {pool : FramePool} {address : VirtualAddress} {region : Region}
  {owned : List PhysicalAddress} (h : Granted space access word address region)

include h

theorem handleFault_of_granted :
    handleFault processor access word (some (space, pool), machines) =
      let outcome := serve processor access address.pageNumber ((space, pool), machines)
      ⟨outcome.result, (some outcome.state.1, outcome.state.2), outcome.events⟩ := by
  have haddress := VirtualAddress.ofWord?_eq_some_iff.mpr h.word_eq
  rw [handleFault, if_neg h.access_ne, if_neg h.word_ne, haddress]
  rfl

theorem handleFault_of_mapped (pool : FramePool) {processor : Processor n}
    (hsame : processor.cache = processor.interrupts)
    {entry : PageEntry} (hentry : space.table.find? address.pageNumber = some entry) :
    ∃ events, handleFault processor access word (some (space, pool), machines) =
      ⟨.ok (),
        (some (space, pool), machines.put processor.cache ((machines.get processor.cache).place
          ⟨address.pageBase, entry.marked (entry.isDirty && region.permissions.writable)⟩)),
        events⟩ := by
  obtain ⟨events, hserve⟩ := serve_of_ok machines hsame
    (AddressSpace.resolve_of_mapped h.deciding h.allowed hentry)
  refine ⟨events, (handleFault_of_granted processor machines h).trans ?_⟩
  rw [hserve]

theorem handleFault_of_full (hbacked : PageTable.Backed owned (space.table, pool))
    (hunmapped : space.table.contains address.pageNumber = false)
    (hfull : (space.table.frames ++ owned).length = pool.limit) :
    ∃ events, handleFault processor access word (some (space, pool), machines) =
      ⟨.error (.refused .outOfMemory),
        (some ({ space with table := space.table.withBlock address.pageNumber.firstIndex }, pool),
        machines),
        events⟩ := by
  obtain ⟨events, hresolve⟩ := AddressSpace.resolve_of_full h.deciding h.allowed hbacked.wellFormed
    hbacked.handedOut hunmapped hfull
  refine ⟨events, (handleFault_of_granted processor machines h).trans ?_⟩
  rw [serve_of_error processor machines hresolve]

theorem handleFault_of_some {processor : Processor n}
    (hsame : processor.cache = processor.interrupts) (htable : space.table.WellFormed)
    (howned : pool.HandedOut owned) (hunmapped : space.table.contains address.pageNumber = false)
    {frame : PhysicalAddress} {next : FramePool} (hallocate : pool.allocate = (some frame, next)) :
    ∃ (events : List Event),
      handleFault processor access word (some (space, pool), machines) =
      ⟨.ok (),
        (some
          ({ space with
              table := space.table.mapping address.pageNumber
                (.fresh frame region.permissions.writable) },
            next.withContents frame Page.zero),
          machines.put processor.cache ((machines.get processor.cache).place
            ⟨address.pageBase, (PageEntry.fresh frame region.permissions.writable).marked
              region.permissions.writable⟩)),
        events⟩ := by
  obtain ⟨events, hresolve⟩ :=
    AddressSpace.resolve_of_some h.deciding h.allowed htable howned hunmapped hallocate
  obtain ⟨events, hserve⟩ := serve_of_ok machines hsame hresolve
  refine ⟨events, (handleFault_of_granted processor machines h).trans ?_⟩
  rw [hserve]

theorem handleFault_of_room {processor : Processor n}
    (hsame : processor.cache = processor.interrupts) (htable : space.table.WellFormed)
    (howned : pool.HandedOut owned) (hunmapped : space.table.contains address.pageNumber = false)
    (hroom : owned.length < pool.limit) :
    ∃ (frame : PhysicalAddress) (next : FramePool) (events : List Event),
      handleFault processor access word (some (space, pool), machines) =
      ⟨.ok (),
        (some
          ({ space with
              table := space.table.mapping address.pageNumber
                (.fresh frame region.permissions.writable) },
            next.withContents frame Page.zero),
          machines.put processor.cache ((machines.get processor.cache).place
            ⟨address.pageBase, (PageEntry.fresh frame region.permissions.writable).marked
              region.permissions.writable⟩)),
        events⟩ := by
  obtain ⟨frame, next, hallocate, -⟩ := howned.allocate_of_room hroom
  exact ⟨frame, next, handleFault_of_some machines h hsame htable howned hunmapped hallocate⟩

end HandleFault

/-- An operation on a process conserves the frames of its space, and a process without a space is
given none. -/
structure Conserving {n : Nat} {α : Type} (x : Action (Context × Machines n) α) : Prop where
  absent : ∀ machines, (x (none, machines)).state.1 = none
  conserves : ∀ t machines, ∃ next, (x (some t, machines)).state.1 = some next ∧
    PageTable.Conserves (AddressSpace.part t) (AddressSpace.part next)

section Conserving

variable {n : Nat} (processor : Processor n)

theorem conserving_handleFault (access : Access) (word : UInt64) :
    Conserving (handleFault processor access word) where
  absent := by
    intro machines
    obtain ⟨events, hfault⟩ := handleFault_of_denied processor machines
      (.inr (.inr (.inl rfl)) : Denied none access word)
    rw [hfault]
  conserves := by
    intro t machines
    rcases Classical.em (Denied (some t) access word) with hdenied | hallowed
    · obtain ⟨events, hfault⟩ := handleFault_of_denied processor machines hdenied
      rw [hfault]
      exact ⟨t, rfl, PageTable.Conserves.refl _⟩
    · obtain ⟨space, pool⟩ := t
      obtain ⟨address, region, hgranted⟩ := granted_of_not_denied hallowed
      rw [handleFault_of_granted processor machines hgranted]
      refine ⟨_, rfl, ?_⟩
      rw [serve, Action.state_bind, Action.run_first]
      have hconserves := AddressSpace.conserves_resolve access address (space, pool)
      cases (AddressSpace.resolve access address.pageNumber (space, pool)).result <;>
        exact hconserves

theorem conserving_handleRawFault (code : UInt32) (word : UInt64) :
    Conserving (handleRawFault processor code word) := by
  rw [handleRawFault]
  cases Access.ofCode code with
  | ok access => exact conserving_handleFault processor access word
  | error reason => exact ⟨fun _ => rfl, fun t _ => ⟨t, rfl, PageTable.Conserves.refl _⟩⟩

theorem conserving_activate : Conserving (activate processor) :=
  ⟨fun _ => rfl, fun t _ => ⟨t, rfl, PageTable.Conserves.refl _⟩⟩

end Conserving

end Context

end DemandPaging
