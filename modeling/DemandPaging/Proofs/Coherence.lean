import DemandPaging.Proofs.Fault

namespace DemandPaging

namespace VirtualAddress

theorem isPageAligned_pageBase (address : VirtualAddress) :
    address.pageBase.isPageAligned = true := by
  have hmod : address.pageBase.word.toNat % 4096 = 0 := by
    rw [toNat_pageBase]
    exact Nat.mul_mod_left _ _
  simp [isPageAligned, Layout.pageBytes, ← UInt64.toNat_inj, hmod]

theorem pageNumber_pageBase (address : VirtualAddress) :
    address.pageBase.pageNumber = address.pageNumber := by
  have hnumber : address.pageBase.pageNumber.number = address.pageNumber.number := by
    rw [← UInt64.toNat_inj, toNat_pageNumber, toNat_pageBase, toNat_pageNumber]
    exact Nat.mul_div_cancel _ (by decide)
  exact congrArg PageNumber.mk hnumber

end VirtualAddress

namespace Region

theorem Decides.widen {regions : List Region} {page : Nat} {region : Region}
    (h : Decides regions page region) : Decides (regions.map Region.widen) page region.widen := by
  obtain ⟨older, newer, rfl, hcovers, hnewer⟩ := h
  refine ⟨older.map Region.widen, newer.map Region.widen, by simp, hcovers, ?_⟩
  intro other hother
  obtain ⟨old, hold, rfl⟩ := List.mem_map.mp hother
  exact hnewer old hold

end Region

namespace AddressSpace

/-- No region was declared, and every page that was mapped is mapped as it was. -/
structure Extends (space next : AddressSpace) : Prop where
  regions : next.regions = space.regions
  entries : ∀ page entry, space.table.find? page = some entry →
    next.table.find? page = some entry

theorem Extends.refl (space : AddressSpace) : space.Extends space :=
  ⟨rfl, fun _ _ => id⟩

/-- A mapping agrees with the entry of its page. It may forbid stores that the entry allows. -/
structure Mirrors (space : AddressSpace) (mapping : Mapping) : Prop where
  aligned : mapping.page.isPageAligned = true
  valid : mapping.entry.isValid = true
  mapped : ∃ entry, space.table.find? mapping.page.pageNumber = some entry ∧
    mapping.entry.frame = entry.frame ∧ (mapping.entry.isDirty = true → entry.isDirty = true)

/-- A mapping allows a store only where the region that decides about its page allows it now. -/
def Permits (space : AddressSpace) (mapping : Mapping) : Prop :=
  mapping.entry.isDirty = true → ∃ region,
    Region.Decides space.regions mapping.page.pageNumber.number.toNat region ∧
      region.permissions.writable = true

theorem Mirrors.extend {space next : AddressSpace} {mapping : Mapping} (h : space.Mirrors mapping)
    (hnext : space.Extends next) : next.Mirrors mapping := by
  obtain ⟨entry, hentry, hagrees⟩ := h.mapped
  exact ⟨h.aligned, h.valid, entry, hnext.entries _ _ hentry, hagrees⟩

/-- All mappings of a cache agree with the table of a space, and they permit no more than its
regions if that is asked for. -/
structure Coherent (space : AddressSpace) (machine : Machine) (strict : Prop) : Prop where
  mirrors : ∀ mapping, some mapping ∈ machine.slots → space.Mirrors mapping
  permits : strict → ∀ mapping, some mapping ∈ machine.slots → space.Permits mapping

/-- What a fault leaves behind: a space with at most more entries, and a cache with at most one more
mapping, which is as it should be. -/
structure Serves (space next : AddressSpace) (machine after : Machine) : Prop where
  extend : space.Extends next
  cache : after = machine ∨ ∃ mapping, after = machine.place mapping ∧ next.Mirrors mapping ∧
    next.Permits mapping

namespace Coherent

variable {space next : AddressSpace} {machine after : Machine} {strict : Prop}

theorem of_empty (h : ∀ mapping, some mapping ∉ machine.slots) : space.Coherent machine strict :=
  ⟨fun mapping hmem => absurd hmem (h mapping), fun _ mapping hmem => absurd hmem (h mapping)⟩

theorem of_slots_eq (h : space.Coherent machine strict) (hslots : after.slots = machine.slots) :
    space.Coherent after strict := by
  constructor
  · rw [hslots]
    exact h.mirrors
  · rw [hslots]
    exact h.permits

theorem weaken (h : space.Coherent machine strict) {asked : Prop} (hasked : asked → strict) :
    space.Coherent machine asked :=
  ⟨h.mirrors, fun ask => h.permits (hasked ask)⟩

theorem serve (h : space.Coherent machine strict) (hserves : space.Serves next machine after) :
    next.Coherent after strict := by
  have hmirrors : ∀ mapping, some mapping ∈ machine.slots → next.Mirrors mapping :=
    fun mapping hmem => (h.mirrors mapping hmem).extend hserves.extend
  have hpermits : strict → ∀ mapping, some mapping ∈ machine.slots → next.Permits mapping := by
    intro hstrict mapping hmem
    rw [Permits, hserves.extend.regions]
    exact h.permits hstrict mapping hmem
  rcases hserves.cache with rfl | ⟨placed, rfl, hplaced, hpermitted⟩
  · exact ⟨hmirrors, hpermits⟩
  · constructor
    · intro mapping hmem
      rcases Machine.mem_slots_place hmem with rfl | hold
      · exact hplaced
      · exact hmirrors mapping hold
    · intro hstrict mapping hmem
      rcases Machine.mem_slots_place hmem with rfl | hold
      · exact hpermitted
      · exact hpermits hstrict mapping hold

theorem declare (h : space.Coherent machine strict) (regions : List Region) :
    Coherent { space with regions } machine False :=
  ⟨fun mapping hmem => ⟨(h.mirrors mapping hmem).aligned, (h.mirrors mapping hmem).valid,
    (h.mirrors mapping hmem).mapped⟩, False.elim⟩

theorem widen (h : space.Coherent machine strict) :
    Coherent { space with regions := space.regions.map Region.widen, loading := true } machine
      strict := by
  constructor
  · intro mapping hmem
    have hmirrors := h.mirrors mapping hmem
    exact ⟨hmirrors.aligned, hmirrors.valid, hmirrors.mapped⟩
  · intro hstrict mapping hmem hdirty
    obtain ⟨region, hdecides, -⟩ := h.permits hstrict mapping hmem hdirty
    exact ⟨region.widen, hdecides.widen, rfl⟩

end Coherent

section Declarations

/-- An operation on a space that declares regions, or stops and changes nothing. -/
def Declares {α : Type} (x : Action AddressSpace α) : Prop :=
  ∀ space : AddressSpace, (∃ a regions events, x space = ⟨.ok a, { space with regions }, events⟩) ∨
    ∃ reason events, x space = ⟨.error reason, space, events⟩

theorem declares_defineRegion (address length : UInt64) (permissions : Permissions) :
    Declares (defineRegion address length permissions) := by
  intro space
  rcases Declaration.region_cases ⟨address, length, permissions⟩ with ⟨region, hregion⟩ | hrefused
  · obtain ⟨events, hdefine⟩ := defineRegion_of_declared space hregion
    exact .inl ⟨(), space.regions ++ [region], events, hdefine⟩
  · have hdefine := defineRegion_of_refused space hrefused
    exact .inr ⟨.refused .invalidArgument, [], hdefine⟩

theorem declares_defineStack : Declares defineStack := by
  intro space
  cases hbottom : Checked.sub space.stackBase.word Layout.userStackSize with
  | error assertion => exact .inr ⟨.violated assertion, [], by simp [defineStack, hbottom]⟩
  | ok bottom =>
      rcases declares_defineRegion bottom Layout.userStackSize .all space with
        ⟨_, regions, events, hregion⟩ | ⟨reason, events, hregion⟩
      · exact .inl ⟨space.stackBase, regions, events, by
          simp [defineStack, hbottom, hregion, Outcome.after]⟩
      · exact .inr ⟨reason, events, by simp [defineStack, hbottom, hregion, Outcome.after]⟩

end Declarations

section Fault

variable {space : AddressSpace} {address : VirtualAddress} {entry : PageEntry} {region : Region}
  {dirty : Bool}

theorem mirrors_marked (hentry : space.table.find? address.pageNumber = some entry)
    (hvalid : entry.isValid = true) (hdirty : dirty = true → entry.isDirty = true) :
    space.Mirrors ⟨address.pageBase, entry.marked dirty⟩ where
  aligned := address.isPageAligned_pageBase
  valid := (PageEntry.isValid_marked entry dirty).trans hvalid
  mapped := by
    refine ⟨entry, ?_, PageEntry.frame_marked entry dirty, ?_⟩
    · rw [address.pageNumber_pageBase]
      exact hentry
    · rw [PageEntry.isDirty_marked]
      exact hdirty

theorem permits_marked (hdeciding : Region.deciding? space.regions address.pageNumber = some region)
    (hdirty : dirty = true → region.permissions.writable = true) :
    space.Permits ⟨address.pageBase, entry.marked dirty⟩ := by
  intro hmarked
  rw [PageEntry.isDirty_marked] at hmarked
  refine ⟨region, ?_, hdirty hmarked⟩
  rw [address.pageNumber_pageBase]
  exact Region.deciding?_eq_some_iff.mp hdeciding

theorem Serves.refl (space : AddressSpace) (machine : Machine) :
    space.Serves space machine machine :=
  ⟨.refl space, .inl rfl⟩

theorem extends_withBlock (h : space.table.WellFormed) (first : FirstIndex) :
    space.Extends { space with table := space.table.withBlock first } :=
  ⟨rfl, fun page _ hentry => (PageTable.find?_withBlock h first page).trans hentry⟩

theorem extends_mapping (h : space.table.WellFormed) {page : PageNumber}
    (hunmapped : space.table.contains page = false) (entry : PageEntry) :
    space.Extends { space with table := space.table.mapping page entry } := by
  refine ⟨rfl, fun other old hold => ?_⟩
  have hne : other.place ≠ page.place := by
    intro hplace
    rw [PageTable.find?_of_place_eq space.table hplace,
      PageTable.contains_eq_false_iff.mp hunmapped] at hold
    cases hold
  exact (PageTable.find?_mapping h page entry other).trans ((if_neg hne).trans hold)

end Fault

end AddressSpace

namespace Context

open AddressSpace (Serves)

variable {n : Nat} {processor : Processor n} {access : Access} {word : UInt64}

theorem serves_of_granted (hsame : processor.cache = processor.interrupts) {space : AddressSpace}
    {pool : FramePool} {owned : List PhysicalAddress} {address : VirtualAddress} {region : Region}
    (h : Granted space access word address region)
    (hbacked : PageTable.Backed owned (space.table, pool)) (machines : Machines n) :
    ∃ t, (handleFault processor access word (some (space, pool), machines)).state.1 = some t ∧
      space.Serves t.1 (machines.get processor.cache)
        ((handleFault processor access word (some (space, pool), machines)).state.2.get
          processor.cache) := by
  have hwellFormed : space.table.WellFormed := hbacked.wellFormed
  cases hmapped : space.table.contains address.pageNumber with
  | true =>
      obtain ⟨entry, hentry⟩ := Option.isSome_iff_exists.mp hmapped
      obtain ⟨events, hfault⟩ := handleFault_of_mapped machines h pool hsame hentry
      rw [hfault]
      refine ⟨(space, pool), rfl, .refl space, .inr ⟨_, Machines.get_put_self _ _ _, ?_, ?_⟩⟩
      · exact AddressSpace.mirrors_marked hentry (hwellFormed.isValid hentry)
          fun hdirty => (Bool.and_eq_true_iff.mp hdirty).1
      · exact AddressSpace.permits_marked h.deciding fun hdirty =>
          (Bool.and_eq_true_iff.mp hdirty).2
  | false =>
      rcases Nat.lt_or_eq_of_le hbacked.handedOut.length_le with hroom | hfull
      · obtain ⟨frame, next, events, hfault⟩ :=
          handleFault_of_room machines h hsame hwellFormed hbacked.handedOut hmapped hroom
        have hentry := PageTable.find?_mapping hwellFormed address.pageNumber
          (.fresh frame region.permissions.writable) address.pageNumber
        rw [if_pos rfl] at hentry
        rw [hfault]
        refine ⟨_, rfl, AddressSpace.extends_mapping hwellFormed hmapped _,
          .inr ⟨_, Machines.get_put_self _ _ _, ?_, ?_⟩⟩
        · exact AddressSpace.mirrors_marked hentry (PageEntry.isValid_fresh _ _)
            fun hdirty => (PageEntry.isDirty_fresh _ _).trans hdirty
        · exact AddressSpace.permits_marked h.deciding id
      · obtain ⟨events, hfault⟩ := handleFault_of_full processor machines h hbacked hmapped hfull
        rw [hfault]
        exact ⟨_, rfl, AddressSpace.extends_withBlock hwellFormed _, .inl rfl⟩

theorem serves_handleFault (hsame : processor.cache = processor.interrupts) {space : AddressSpace}
    {pool : FramePool} {owned : List PhysicalAddress}
    (hbacked : PageTable.Backed owned (space.table, pool)) (machines : Machines n) (access : Access)
    (word : UInt64) :
    ∃ t, (handleFault processor access word (some (space, pool), machines)).state.1 = some t ∧
      space.Serves t.1 (machines.get processor.cache)
        ((handleFault processor access word (some (space, pool), machines)).state.2.get
          processor.cache) := by
  by_cases hdenied : Denied (some (space, pool)) access word
  · obtain ⟨events, hfault⟩ := handleFault_of_denied processor machines hdenied
    rw [hfault]
    exact ⟨(space, pool), rfl, .refl space _⟩
  · obtain ⟨address, region, hgranted⟩ := granted_of_not_denied hdenied
    exact serves_of_granted hsame hgranted hbacked machines

theorem serves_handleRawFault (hsame : processor.cache = processor.interrupts)
    {space : AddressSpace} {pool : FramePool} {owned : List PhysicalAddress}
    (hbacked : PageTable.Backed owned (space.table, pool)) (machines : Machines n) (code : UInt32)
    (word : UInt64) :
    ∃ t, (handleRawFault processor code word (some (space, pool), machines)).state.1 = some t ∧
      space.Serves t.1 (machines.get processor.cache)
        ((handleRawFault processor code word (some (space, pool), machines)).state.2.get
          processor.cache) := by
  rw [handleRawFault]
  cases Access.ofCode code with
  | ok access => exact serves_handleFault hsame hbacked machines access word
  | error reason => exact ⟨(space, pool), rfl, .refl space _⟩

end Context

end DemandPaging
