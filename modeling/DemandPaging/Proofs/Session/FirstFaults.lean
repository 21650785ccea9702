import Mathlib.Data.Finset.Card
import Mathlib.Logic.Function.Iterate
import DemandPaging.Proofs.Session.Chronicle
import DemandPaging.Proofs.Translation

namespace DemandPaging

structure Fault where
  access : Access
  word : UInt64
  deriving DecidableEq, Repr

namespace AddressSpace

/-- The address that a fault is about, if a region of the space allows the access. -/
def allowed? (space : AddressSpace) (fault : Fault) : Option VirtualAddress :=
  if fault.access = .readOnlyViolation ∨ fault.word = 0 then none
  else do
    let address ← VirtualAddress.ofWord? fault.word
    let region ← Region.deciding? space.regions address.pageNumber
    if fault.access.allowedBy region.permissions then some address else none

def verdict (space : AddressSpace) (fault : Fault) : Except Stop Unit :=
  if (space.allowed? fault).isSome then .ok () else .error (.refused .protectionFault)

/-- The pages that faults map: those of the faults that are allowed, if they are not mapped yet. -/
def newPages (space : AddressSpace) (faults : List Fault) : Finset PageNumber :=
  ((faults.filterMap space.allowed?).map VirtualAddress.pageNumber).toFinset.filter fun page =>
    space.table.contains page = false

variable {space : AddressSpace} {fault : Fault} {address : VirtualAddress}

theorem allowed?_eq_some_iff :
    space.allowed? fault = some address ↔
      ∃ region, Context.Granted space fault.access fault.word address region := by
  rw [allowed?]
  constructor
  · intro h
    split at h
    · cases h
    · rename_i hkind
      rw [not_or] at hkind
      obtain ⟨found, haddress, hfound⟩ := Option.bind_eq_some_iff.mp h
      obtain ⟨region, hregion, hallowed⟩ := Option.bind_eq_some_iff.mp hfound
      split at hallowed
      · cases hallowed
        exact ⟨region, VirtualAddress.ofWord?_eq_some_iff.mp haddress, hkind.2, hkind.1, hregion,
          ‹_›⟩
      · cases hallowed
  · rintro ⟨region, h⟩
    rw [if_neg (not_or.mpr ⟨h.access_ne, h.word_ne⟩),
      VirtualAddress.ofWord?_eq_some_iff.mpr h.word_eq, Option.bind_eq_bind, Option.bind_some,
      h.deciding, Option.bind_eq_bind, Option.bind_some, if_pos h.allowed]

theorem denied_of_allowed?_eq_none (h : space.allowed? fault = none) (pool : FramePool) :
    Context.Denied (some (space, pool)) fault.access fault.word := by
  by_contra hdenied
  obtain ⟨_, _, address, region, hcontext, hgranted⟩ := Context.not_denied_iff.mp hdenied
  obtain ⟨rfl, rfl⟩ := Prod.mk.inj (Option.some.inj hcontext)
  rw [allowed?_eq_some_iff.mpr ⟨region, hgranted⟩] at h
  cases h

theorem mem_newPages_iff {faults : List Fault} {page : PageNumber} :
    page ∈ space.newPages faults ↔
      (∃ fault ∈ faults, ∃ address, space.allowed? fault = some address ∧
        address.pageNumber = page) ∧ space.table.contains page = false := by
  rw [newPages, Finset.mem_filter, List.mem_toFinset, List.mem_map]
  simp only [List.mem_filterMap]
  constructor
  · rintro ⟨⟨address, ⟨fault, hfault, hallowed⟩, hpage⟩, hunmapped⟩
    exact ⟨⟨fault, hfault, address, hallowed, hpage⟩, hunmapped⟩
  · rintro ⟨⟨fault, hfault, address, hallowed, hpage⟩, hunmapped⟩
    exact ⟨⟨address, ⟨fault, hfault, hallowed⟩, hpage⟩, hunmapped⟩

@[simp] theorem newPages_nil (space : AddressSpace) : space.newPages [] = ∅ := rfl

theorem newPages_cons (space : AddressSpace) (fault : Fault) (rest : List Fault) :
    space.newPages (fault :: rest) = space.newPages [fault] ∪ space.newPages rest := by
  ext page
  simp only [mem_newPages_iff, Finset.mem_union, List.mem_cons, List.not_mem_nil, or_false]
  constructor
  · rintro ⟨⟨found, rfl | hfound, hpage⟩, hunmapped⟩
    · exact .inl ⟨⟨found, rfl, hpage⟩, hunmapped⟩
    · exact .inr ⟨⟨found, hfound, hpage⟩, hunmapped⟩
  · rintro (⟨⟨found, hfound, hpage⟩, hunmapped⟩ | ⟨⟨found, hfound, hpage⟩, hunmapped⟩)
    · exact ⟨⟨found, .inl hfound, hpage⟩, hunmapped⟩
    · exact ⟨⟨found, .inr hfound, hpage⟩, hunmapped⟩

theorem newPages_of_perm (space : AddressSpace) {faults others : List Fault}
    (h : faults.Perm others) : space.newPages faults = space.newPages others := by
  ext page
  simp only [mem_newPages_iff, h.mem_iff]

theorem newPages_of_denied (h : space.allowed? fault = none) : space.newPages [fault] = ∅ := by
  rw [newPages, List.filterMap_cons_none h]
  rfl

theorem newPages_of_allowed (h : space.allowed? fault = some address) :
    space.newPages [fault] =
      if space.table.contains address.pageNumber = false then {address.pageNumber} else ∅ := by
  rw [newPages, List.filterMap_cons_some h]
  exact Finset.filter_singleton _ _

end AddressSpace

namespace FramePool

def drawn (pool : FramePool) : FramePool :=
  match pool.allocate with
  | (some frame, next) => next.withContents frame Page.zero
  | (none, next) => next

theorem drawn_of_some {pool next : FramePool} {frame : PhysicalAddress}
    (h : pool.allocate = (some frame, next)) : pool.drawn = next.withContents frame Page.zero := by
  rw [drawn, h]

end FramePool

/-- One space with its pool has grown out of another one by a set of new pages. As many frames were
drawn from the pool, whichever page each of them is for. The frames of the new pages are clear, and
all that was mapped before is as it was. -/
structure Grown (base : AddressSpace × FramePool) (owned : List PhysicalAddress)
    (added : Finset PageNumber) (now : AddressSpace × FramePool) : Prop where
  space : now.1 = { base.1 with table := now.1.table }
  samePool : now.1.table.pool = base.1.table.pool
  backed : PageTable.Backed owned (AddressSpace.part now)
  pool : now.2 = FramePool.drawn^[added.card] base.2
  limit : now.2.limit = base.2.limit
  releases : now.2.releases = base.2.releases
  allocations : now.2.allocations = base.2.allocations + added.card
  users : ∀ page ∈ added, page.number.toNat < Layout.pageCount
  unmapped : ∀ page ∈ added, base.1.table.find? page = none
  kept : ∀ page, (∀ new ∈ added, new.place ≠ page.place) →
    now.1.table.find? page = base.1.table.find? page
  mapped : ∀ page ∈ added, ∃ entry, now.1.table.find? page = some entry ∧
    entry.isDirty = base.1.writableAt page ∧ now.2.memory.contents entry.frame = Page.zero

namespace Grown

variable {base now : AddressSpace × FramePool} {owned : List PhysicalAddress}
  {added : Finset PageNumber}

theorem refl (h : PageTable.Backed owned (AddressSpace.part base)) : Grown base owned ∅ base where
  space := rfl
  samePool := rfl
  backed := h
  pool := rfl
  limit := rfl
  releases := rfl
  allocations := rfl
  users := nofun
  unmapped := nofun
  kept _ _ := rfl
  mapped := nofun

theorem regions (h : Grown base owned added now) : now.1.regions = base.1.regions := by
  rw [h.space]

theorem allowed?_eq (h : Grown base owned added now) (fault : Fault) :
    now.1.allowed? fault = base.1.allowed? fault := by
  rw [AddressSpace.allowed?, h.regions, AddressSpace.allowed?]

theorem ne_place (h : Grown base owned added now) {page : PageNumber}
    (hpage : page.number.toNat < Layout.pageCount) (hnot : page ∉ added) :
    ∀ new ∈ added, new.place ≠ page.place := by
  intro new hnew hplace
  exact hnot (PageNumber.place_injective (h.users new hnew) hpage hplace ▸ hnew)

theorem contains_iff (h : Grown base owned added now) {page : PageNumber}
    (hpage : page.number.toNat < Layout.pageCount) :
    now.1.table.contains page = true ↔ page ∈ added ∨ base.1.table.contains page = true := by
  by_cases hadded : page ∈ added
  · obtain ⟨entry, hentry, -⟩ := h.mapped page hadded
    exact iff_of_true (by rw [PageTable.contains, hentry]; rfl) (.inl hadded)
  · rw [PageTable.contains, h.kept page (h.ne_place hpage hadded), PageTable.contains]
    simp [hadded]

theorem new_of_unmapped (h : Grown base owned added now) {page : PageNumber}
    (hpage : page.number.toNat < Layout.pageCount)
    (hunmapped : now.1.table.contains page = false) :
    page ∉ added ∧ base.1.table.contains page = false := by
  rw [← Bool.not_eq_true, ← not_or, ← h.contains_iff hpage, hunmapped]
  exact Bool.false_ne_true

theorem outstanding_eq (h : Grown base owned added now)
    (hbase : PageTable.Backed owned (AddressSpace.part base)) :
    now.2.outstanding = base.2.outstanding + added.card := by
  have hle : base.2.releases ≤ base.2.allocations :=
    hbase.handedOut.allocations ▸ Nat.le_add_right _ _
  rw [FramePool.outstanding, FramePool.outstanding, h.allocations, h.releases]
  omega

theorem wellFormed (h : Grown base owned added now) : now.1.table.WellFormed :=
  h.backed.wellFormed

theorem kept_mapping (h : Grown base owned added now) {page other : PageNumber} (entry : PageEntry)
    (hother : ∀ new ∈ insert page added, new.place ≠ other.place) :
    (now.1.table.mapping page entry).find? other = base.1.table.find? other := by
  have hne := hother page (Finset.mem_insert_self page added)
  rw [PageTable.find?_mapping h.wellFormed, if_neg hne.symm]
  exact h.kept other fun new hold => hother new (Finset.mem_insert_of_mem hold)

theorem mapped_mapping (h : Grown base owned added now) {page new : PageNumber}
    (hpage : page.number.toNat < Layout.pageCount) (hnot : page ∉ added)
    {frame : PhysicalAddress} {next : FramePool} (hallocate : now.2.allocate = (some frame, next))
    (hmember : new ∈ insert page added) :
    ∃ entry, (now.1.table.mapping page (.fresh frame (base.1.writableAt page))).find? new =
        some entry ∧
      entry.isDirty = base.1.writableAt new ∧
        (next.withContents frame Page.zero).memory.contents entry.frame = Page.zero := by
  obtain ⟨hnext, hchange⟩ := h.backed.handedOut.allocate_of_some hallocate
  rw [PageTable.find?_mapping h.wellFormed]
  rcases Finset.mem_insert.mp hmember with rfl | hold
  · refine ⟨_, if_pos rfl, PageEntry.isDirty_fresh _ _, ?_⟩
    rw [PageEntry.frame_fresh hnext.isPageAligned_first]
    exact hnext.contents_withContents_first _
  · obtain ⟨entry, hentry, hdirty, hclear⟩ := h.mapped new hold
    refine ⟨entry, (if_neg (h.ne_place hpage hnot new hold)).trans hentry, hdirty, ?_⟩
    have hframes := List.mem_append_left owned (PageTable.frame_mem_frames hentry)
    rw [hnext.contents_withContents _ hframes, hchange.memory]
    exact hclear

theorem map (h : Grown base owned added now) {page : PageNumber}
    (hpage : page.number.toNat < Layout.pageCount)
    (hunmapped : now.1.table.contains page = false) {frame : PhysicalAddress} {next : FramePool}
    (hallocate : now.2.allocate = (some frame, next)) :
    Grown base owned (insert page added)
      ({ now.1 with
          table := now.1.table.mapping page (.fresh frame (base.1.writableAt page)) },
        next.withContents frame Page.zero) := by
  obtain ⟨hnext, hchange⟩ := h.backed.handedOut.allocate_of_some hallocate
  obtain ⟨hnot, hbefore⟩ := h.new_of_unmapped hpage hunmapped
  have hcard := Finset.card_insert_of_notMem hnot
  constructor
  case space => rw [h.space]
  case samePool => exact (PageTable.pool_mapping now.1.table page _).trans h.samePool
  case backed => exact PageTable.Backed.mapping_fresh h.backed hunmapped hnext _
  case pool =>
    rw [hcard, Function.iterate_succ_apply', ← h.pool, FramePool.drawn_of_some hallocate]
  case limit => exact hchange.limit.trans h.limit
  case releases => exact hchange.releases.trans h.releases
  case allocations =>
    rw [hcard, ← Nat.add_assoc, ← h.allocations]
    exact hchange.allocations
  case users =>
    intro new hmember
    rcases Finset.mem_insert.mp hmember with rfl | hold
    · exact hpage
    · exact h.users new hold
  case unmapped =>
    intro new hmember
    rcases Finset.mem_insert.mp hmember with rfl | hold
    · exact PageTable.contains_eq_false_iff.mp hbefore
    · exact h.unmapped new hold
  case kept =>
    intro other hother
    exact h.kept_mapping _ hother
  case mapped =>
    intro new hmember
    exact h.mapped_mapping hpage hnot hallocate hmember

end Grown

/-- Two states of machines in which they differ at most in what one of them has in its cache. -/
def Machines.SameButCache {n : Nat} (cache : Fin n) (machines others : Machines n) : Prop :=
  ∀ id, (others.get id).level = (machines.get id).level ∧
    (others.get id).invalidations = (machines.get id).invalidations ∧
    (id ≠ cache → others.get id = machines.get id)

namespace Machines

variable {n : Nat} {cache : Fin n} {machines others further : Machines n}

theorem SameButCache.refl (cache : Fin n) (machines : Machines n) :
    machines.SameButCache cache machines :=
  fun _ => ⟨rfl, rfl, fun _ => rfl⟩

theorem SameButCache.symm (h : machines.SameButCache cache others) :
    others.SameButCache cache machines :=
  fun id => ⟨(h id).1.symm, (h id).2.1.symm, fun hid => ((h id).2.2 hid).symm⟩

theorem SameButCache.trans (h : machines.SameButCache cache others)
    (hnext : others.SameButCache cache further) : machines.SameButCache cache further :=
  fun id => ⟨(hnext id).1.trans (h id).1, (hnext id).2.1.trans (h id).2.1,
    fun hid => ((hnext id).2.2 hid).trans ((h id).2.2 hid)⟩

theorem sameButCache_place (cache : Fin n) (machines : Machines n) (mapping : Mapping) :
    machines.SameButCache cache (machines.put cache ((machines.get cache).place mapping)) := by
  intro id
  by_cases hid : id = cache
  · rw [hid, get_put_self]
    exact ⟨Machine.level_place _ mapping, Machine.invalidations_place _ mapping,
      fun hne => absurd rfl hne⟩
  · rw [get_put_of_ne _ hid]
    exact ⟨rfl, rfl, fun _ => rfl⟩

end Machines

section Step

variable {n : Nat} {processor : Processor n} {base now : AddressSpace × FramePool}
  {owned : List PhysicalAddress} {added : Finset PageNumber} {fault : Fault}

def Grown.StepsBy (processor : Processor n) (base now : AddressSpace × FramePool)
    (owned : List PhysicalAddress) (added : Finset PageNumber) (fault : Fault)
    (machines : Machines n) : Prop :=
  ∃ next after events,
    Context.handleFault processor fault.access fault.word (some now, machines) =
      ⟨base.1.verdict fault, (some next, after), events⟩ ∧
    Grown base owned (added ∪ base.1.newPages [fault]) next ∧
    machines.SameButCache processor.cache after

namespace Grown

variable (h : Grown base owned added now)

include h

theorem step_of_denied (hdenied : base.1.allowed? fault = none) (machines : Machines n) :
    StepsBy processor base now owned added fault machines := by
  have hnow : now.1.allowed? fault = none := (h.allowed?_eq fault).trans hdenied
  obtain ⟨events, hfault⟩ := Context.handleFault_of_denied processor machines
    (AddressSpace.denied_of_allowed?_eq_none hnow now.2)
  refine ⟨now, machines, events, hfault.trans ?_, ?_, .refl _ machines⟩
  · rw [AddressSpace.verdict, hdenied]
    rfl
  · rw [AddressSpace.newPages_of_denied hdenied, Finset.union_empty]
    exact h

variable {address : VirtualAddress} {region : Region}
  (hgranted : Context.Granted base.1 fault.access fault.word address region)

include hgranted

theorem granted_now : Context.Granted now.1 fault.access fault.word address region :=
  { hgranted with deciding := h.regions ▸ hgranted.deciding }

omit h in
theorem verdict_of_granted : base.1.verdict fault = .ok () := by
  rw [AddressSpace.verdict, AddressSpace.allowed?_eq_some_iff.mpr ⟨region, hgranted⟩]
  rfl

theorem step_of_mapped (hsame : processor.cache = processor.interrupts) {entry : PageEntry}
    (hentry : now.1.table.find? address.pageNumber = some entry) (machines : Machines n) :
    StepsBy processor base now owned added fault machines := by
  have hmapped : now.1.table.contains address.pageNumber = true := by
    rw [PageTable.contains, hentry]
    rfl
  have hallowed := AddressSpace.allowed?_eq_some_iff.mpr ⟨region, hgranted⟩
  have hold : base.1.newPages [fault] ⊆ added := by
    rw [AddressSpace.newPages_of_allowed hallowed]
    split
    · rename_i hunmapped
      refine Finset.singleton_subset_iff.mpr
        (((h.contains_iff address.toNat_pageNumber_lt).mp hmapped).resolve_right ?_)
      rw [hunmapped]
      exact Bool.false_ne_true
    · exact Finset.empty_subset added
  obtain ⟨events, hfault⟩ :=
    Context.handleFault_of_mapped machines (h.granted_now hgranted) now.2 hsame hentry
  rw [← verdict_of_granted hgranted] at hfault
  refine ⟨now, _, events, hfault, ?_, Machines.sameButCache_place _ machines _⟩
  rw [Finset.union_eq_left.mpr hold]
  exact h

theorem step_of_unmapped (hsame : processor.cache = processor.interrupts)
    (hbase : PageTable.Backed owned (AddressSpace.part base))
    (hroom : base.2.outstanding + (added ∪ base.1.newPages [fault]).card ≤ base.2.limit)
    (hunmapped : now.1.table.contains address.pageNumber = false) (machines : Machines n) :
    StepsBy processor base now owned added fault machines := by
  obtain ⟨hnot, hbefore⟩ := h.new_of_unmapped address.toNat_pageNumber_lt hunmapped
  have hallowed := AddressSpace.allowed?_eq_some_iff.mpr ⟨region, hgranted⟩
  have hunion : added ∪ base.1.newPages [fault] = insert address.pageNumber added := by
    rw [AddressSpace.newPages_of_allowed hallowed, if_pos hbefore, Finset.union_comm,
      Finset.insert_eq]
  have hless : now.2.outstanding < now.2.limit := by
    rw [hunion, Finset.card_insert_of_notMem hnot] at hroom
    rw [h.outstanding_eq hbase, h.limit]
    omega
  obtain ⟨frame, next, hallocate, -⟩ :=
    h.backed.handedOut.allocate_of_room (h.backed.handedOut.outstanding_eq.symm.trans_lt hless)
  obtain ⟨events, hfault⟩ := Context.handleFault_of_some machines (h.granted_now hgranted) hsame
    h.backed.wellFormed h.backed.handedOut hunmapped hallocate
  have hwritable : base.1.writableAt address.pageNumber = region.permissions.writable := by
    rw [AddressSpace.writableAt, hgranted.deciding]
    rfl
  have hgrown := h.map address.toNat_pageNumber_lt hunmapped hallocate
  rw [hwritable, ← hunion] at hgrown
  rw [← verdict_of_granted hgranted] at hfault
  exact ⟨_, _, events, hfault, hgrown, Machines.sameButCache_place _ machines _⟩

omit hgranted in
/-- While there are frames for the new pages, how a fault ends is told by the regions, and the pages
that it maps are added. -/
theorem step (hsame : processor.cache = processor.interrupts)
    (hbase : PageTable.Backed owned (AddressSpace.part base)) (fault : Fault)
    (hroom : base.2.outstanding + (added ∪ base.1.newPages [fault]).card ≤ base.2.limit)
    (machines : Machines n) : StepsBy processor base now owned added fault machines := by
  cases hallowed : base.1.allowed? fault with
  | none => exact h.step_of_denied hallowed machines
  | some address =>
      obtain ⟨region, hgranted⟩ := AddressSpace.allowed?_eq_some_iff.mp hallowed
      cases hentry : now.1.table.find? address.pageNumber with
      | some entry => exact h.step_of_mapped hgranted hsame hentry machines
      | none =>
          exact h.step_of_unmapped hgranted hsame hbase hroom
            (PageTable.contains_eq_false_iff.mpr hentry) machines

end Grown

end Step

end DemandPaging
