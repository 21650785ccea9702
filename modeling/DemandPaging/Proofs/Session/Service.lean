import DemandPaging.Proofs.Session.CacheWrites
import DemandPaging.Proofs.Session.Faults

namespace DemandPaging

namespace AddressSpace

/-- The effect of a fault at an address on a space, which becomes `next`, and on a cache. -/
structure Served (space next : AddressSpace) (machine after : Machine) (address : VirtualAddress) :
    Prop where
  regions : next.regions = space.regions
  /-- The mapping is the valid one of the page, it leads to where the address is translated to, and
  it may be written if the entry and the region that decides about the page both say so. -/
  found : ∃ mapping entry region target, after.lookup address = some mapping ∧
    next.table.find? address.pageNumber = some entry ∧
    Region.Decides space.regions address.pageNumber.number.toNat region ∧
    next.physical? address = some target ∧
    mapping.page = address.pageBase ∧ mapping.entry.isValid = true ∧
    target.word.toNat = mapping.entry.frame.word.toNat + address.pageOffset.toNat ∧
    mapping.entry.isDirty = (entry.isDirty && region.permissions.writable)
  others : ∀ page : PageNumber, page.place ≠ address.pageNumber.place →
    next.table.find? page = space.table.find? page
  cached : machine.MakesWay after address

variable {space next : AddressSpace} {machine : Machine} {address : VirtualAddress}
  {entry : PageEntry} {region : Region}

theorem served_place (htidy : machine.Tidy)
    (hdeciding : Region.deciding? space.regions address.pageNumber = some region)
    (hregions : next.regions = space.regions)
    (hentry : next.table.find? address.pageNumber = some entry) (hvalid : entry.isValid = true)
    (hothers : ∀ page : PageNumber, page.place ≠ address.pageNumber.place →
      next.table.find? page = space.table.find? page) :
    space.Served next machine
      (machine.place
        ⟨address.pageBase, entry.marked (entry.isDirty && region.permissions.writable)⟩)
      address where
  regions := hregions
  found := by
    have hphysical : next.physical? address =
        some ⟨entry.frame.word + address.pageOffset⟩ := by
      rw [physical?, hentry]
      rfl
    obtain ⟨found, hfound, hword⟩ := physical?_eq_some hphysical
    obtain rfl := Option.some.inj (hentry.symm.trans hfound)
    refine ⟨_, entry, region, _, Machine.lookup_place machine rfl, hentry,
      Region.deciding?_eq_some_iff.mp hdeciding, hphysical, rfl, ?_, ?_, ?_⟩
    · exact (PageEntry.isValid_marked _ _).trans hvalid
    · rw [hword, address.toNat_pageOffset, PageEntry.frame_marked]
      rfl
    · exact PageEntry.isDirty_marked _ _
  others := hothers
  cached := htidy.makesWay_place rfl

end AddressSpace

namespace Context

variable {n : Nat} {processor : Processor n} {access : Access} {word : UInt64}

theorem served_of_granted {space : AddressSpace} {pool : FramePool} {address : VirtualAddress}
    {region : Region} (h : Granted space access word address region)
    {owned : List PhysicalAddress} (hbacked : PageTable.Backed owned (space.table, pool))
    (hsame : processor.cache = processor.interrupts) {machines : Machines n}
    (htidy : (machines.get processor.cache).Tidy)
    (hserved :
      (handleFault processor access word (some (space, pool), machines)).result = .ok ()) :
    ∃ next last,
      (handleFault processor access word (some (space, pool), machines)).state.1 =
        some (next, last) ∧
      space.Served next (machines.get processor.cache)
        ((handleFault processor access word (some (space, pool), machines)).state.2.get
          processor.cache) address := by
  have hwellFormed : space.table.WellFormed := hbacked.wellFormed
  cases hmapped : space.table.contains address.pageNumber with
  | true =>
      obtain ⟨entry, hentry⟩ := Option.isSome_iff_exists.mp hmapped
      obtain ⟨events, hfault⟩ := handleFault_of_mapped machines h pool hsame hentry
      rw [hfault]
      refine ⟨space, pool, rfl, ?_⟩
      rw [Machines.get_put_self]
      exact AddressSpace.served_place htidy h.deciding rfl hentry (hwellFormed.isValid hentry)
        fun _ _ => rfl
  | false =>
      rcases Nat.lt_or_eq_of_le hbacked.handedOut.length_le with hroom | hfull
      · obtain ⟨frame, next, events, hfault⟩ :=
          handleFault_of_room machines h hsame hwellFormed hbacked.handedOut hmapped hroom
        have hfind := PageTable.find?_mapping hwellFormed address.pageNumber
          (.fresh frame region.permissions.writable)
        rw [hfault]
        refine ⟨_, _, rfl, ?_⟩
        rw [Machines.get_put_self]
        have hregions : AddressSpace.regions { space with
            table := space.table.mapping address.pageNumber
              (.fresh frame region.permissions.writable) } = space.regions := rfl
        have hserves := AddressSpace.served_place htidy h.deciding hregions
          ((hfind address.pageNumber).trans (if_pos rfl)) (PageEntry.isValid_fresh _ _)
          fun page hne => (hfind page).trans (if_neg hne)
        rwa [PageEntry.isDirty_fresh, Bool.and_self] at hserves
      · obtain ⟨events, hfault⟩ := handleFault_of_full processor machines h hbacked hmapped hfull
        rw [hfault] at hserved
        cases hserved

end Context

namespace Session

variable {n : Nat}

/-- Whenever a fault is served in a reachable session, the mapping of its page is found in the
cache. It is valid, its frame is that of the translation, and it may be written exactly if the entry
of the page and the region that decides about it allow this. The entries of all other pages are as
before, and so are their mappings in the cache, of which exactly one is lost if the cache was full
and did not hold the page. -/
theorem served_of_reachable {s : Session n} {held : Holdings} (h : Reachable s held) {slot : SlotId}
    {processor : Processor n} (hsame : processor.cache = processor.interrupts) {access : Access}
    {word : UInt64}
    (hserved : (Context.handleFault processor access word (space? slot s, s.machines)).result =
      .ok ()) :
    ∃ address space pool next last, VirtualAddress.ofWord? word = some address ∧
      space? slot s = some (space, pool) ∧
      (Context.handleFault processor access word (space? slot s, s.machines)).state.1 =
        some (next, last) ∧
      space.Served next (s.machines.get processor.cache)
        ((Context.handleFault processor access word (space? slot s, s.machines)).state.2.get
          processor.cache) address := by
  obtain ⟨space, pool, address, region, hspace, hgranted⟩ :=
    Context.not_denied_iff.mp (Context.not_denied_of_served hserved)
  obtain ⟨owned, hbacked⟩ := h.backed hspace
  rw [hspace] at hserved ⊢
  obtain ⟨next, last, hnext, hserves⟩ :=
    Context.served_of_granted hgranted hbacked hsame (h.tidy processor.cache) hserved
  exact ⟨address, space, pool, next, last, VirtualAddress.ofWord?_eq_some_iff.mpr hgranted.word_eq,
    rfl, hnext, hserves⟩

theorem served_of_readBeforeLoad :
    Reachable readBeforeLoad [] ∧
      (Context.handleFault (⟨0, 0⟩ : Processor 1) .write 0x1000
        (space? 0 readBeforeLoad, readBeforeLoad.machines)).result = .ok () ∧
      ∃ address space pool next last, VirtualAddress.ofWord? 0x1000 = some address ∧
        space? 0 readBeforeLoad = some (space, pool) ∧
        (Context.handleFault (⟨0, 0⟩ : Processor 1) .write 0x1000
          (space? 0 readBeforeLoad, readBeforeLoad.machines)).state.1 = some (next, last) ∧
        space.Served next (readBeforeLoad.machines.get 0)
          ((Context.handleFault (⟨0, 0⟩ : Processor 1) .write 0x1000
            (space? 0 readBeforeLoad, readBeforeLoad.machines)).state.2.get 0) address := by
  have hserved : (Context.handleFault (⟨0, 0⟩ : Processor 1) .write 0x1000
      (space? 0 readBeforeLoad, readBeforeLoad.machines)).result = .ok () := by
    decide +kernel
  exact ⟨reachable_readBeforeLoad, hserved,
    served_of_reachable reachable_readBeforeLoad rfl hserved⟩

end Session

end DemandPaging
