import Mathlib.Data.Finset.Card
import Mathlib.Data.Finset.Dedup
import DemandPaging.Proofs.Coherence

/-!
What a cache holds on to. As long as no page has two mappings, a mapping is found exactly if it is
there, and a mapping that is placed takes the place of at most one other: of one for its own page,
or of the one that a full cache has to give up.
-/

namespace DemandPaging

theorem VirtualAddress.pageBase_of_isPageAligned {address : VirtualAddress}
    (h : address.isPageAligned = true) : address.pageBase = address := by
  apply word_injective
  rw [← UInt64.toNat_inj, toNat_pageBase]
  have hmod : address.word.toNat % 4096 = 0 := by
    simpa [isPageAligned, Layout.pageBytes, ← UInt64.toNat_inj] using h
  exact Nat.div_mul_cancel (Nat.dvd_of_mod_eq_zero hmod)

namespace Machine

theorem mem_slots_iff {machine : Machine} {mapping : Mapping} :
    some mapping ∈ machine.slots ↔ ∃ slot : CacheSlot, machine.slots[slot] = some mapping := by
  rw [Vector.mem_iff_getElem]
  exact ⟨fun ⟨i, hi, hslot⟩ => ⟨⟨i, hi⟩, hslot⟩, fun ⟨slot, hslot⟩ => ⟨slot.val, slot.isLt, hslot⟩⟩

theorem liveEntries_eq_iff {machine : Machine} :
    machine.liveEntries = Layout.cacheSlots ↔
      ∀ slot : CacheSlot, (machine.slots[slot]).isSome = true := by
  have hcount : machine.liveEntries = Layout.cacheSlots ↔
      machine.liveEntries = machine.slots.toList.length := by
    rw [Vector.length_toList]
  rw [hcount, liveEntries, List.countP_eq_length]
  constructor
  · intro h slot
    exact h _ (Vector.mem_toList_iff.mpr (Vector.getElem_mem slot.isLt))
  · intro h cell hcell
    obtain ⟨i, hi, rfl⟩ := Vector.mem_iff_getElem.mp (Vector.mem_toList_iff.mp hcell)
    exact h ⟨i, hi⟩

theorem liveEntries_le (machine : Machine) : machine.liveEntries ≤ Layout.cacheSlots :=
  List.countP_le_length.trans_eq Vector.length_toList

theorem liveEntries_lt_of_free {machine : Machine} {slot : CacheSlot}
    (h : machine.slots[slot] = none) : machine.liveEntries < Layout.cacheSlots := by
  refine lt_of_le_of_ne machine.liveEntries_le fun hfull => ?_
  have hsome := liveEntries_eq_iff.mp hfull slot
  rw [h] at hsome
  cases hsome

theorem mem_slots_of_lookup {machine : Machine} {address : VirtualAddress} {mapping : Mapping}
    (h : machine.lookup address = some mapping) :
    some mapping ∈ machine.slots ∧ mapping.page = address.pageBase := by
  have hmem := List.mem_of_find?_eq_some h
  rw [List.mem_filterMap] at hmem
  obtain ⟨cell, hcell, rfl⟩ := hmem
  exact ⟨Vector.mem_toList_iff.mp hcell, by simpa using List.find?_some h⟩

theorem exists_lookup_of_mem {machine : Machine} {address : VirtualAddress} {mapping : Mapping}
    (h : some mapping ∈ machine.slots) (hpage : mapping.page = address.pageBase) :
    ∃ found, machine.lookup address = some found := by
  apply Option.isSome_iff_exists.mp
  rw [lookup, List.find?_isSome]
  exact ⟨mapping, List.mem_filterMap.mpr ⟨some mapping, Vector.mem_toList_iff.mpr h, rfl⟩,
    by simpa using hpage⟩

theorem lookup_eq_none_iff {machine : Machine} {address : VirtualAddress} :
    machine.lookup address = none ↔
      ∀ mapping, some mapping ∈ machine.slots → mapping.page ≠ address.pageBase := by
  constructor
  · intro h mapping hmem hpage
    obtain ⟨found, hfound⟩ := exists_lookup_of_mem hmem hpage
    rw [h] at hfound
    cases hfound
  · intro h
    cases hfound : machine.lookup address with
    | none => rfl
    | some mapping =>
        obtain ⟨hmem, hpage⟩ := mem_slots_of_lookup hfound
        exact absurd hpage (h mapping hmem)

/-- Every mapping in the cache is that of an aligned page, and no page has two of them. -/
structure Tidy (machine : Machine) : Prop where
  aligned : ∀ mapping, some mapping ∈ machine.slots → mapping.page.isPageAligned = true
  unshared : ∀ (slot other : CacheSlot) (mapping another : Mapping),
    machine.slots[slot] = some mapping → machine.slots[other] = some another →
      mapping.page = another.page → slot = other

theorem tidy_of_empty {machine : Machine} (h : ∀ mapping, some mapping ∉ machine.slots) :
    machine.Tidy :=
  ⟨fun mapping hmem => absurd hmem (h mapping),
    fun slot _ mapping _ hslot => absurd (mem_slots_iff.mpr ⟨slot, hslot⟩) (h mapping)⟩

theorem Tidy.of_slots_eq {machine after : Machine} (h : machine.Tidy)
    (hslots : after.slots = machine.slots) : after.Tidy := by
  constructor
  · rw [hslots]
    exact h.aligned
  · rw [hslots]
    exact h.unshared

theorem Tidy.lookup_eq_some_iff {machine : Machine} (h : machine.Tidy) {address : VirtualAddress}
    {mapping : Mapping} :
    machine.lookup address = some mapping ↔
      some mapping ∈ machine.slots ∧ mapping.page = address.pageBase := by
  refine ⟨mem_slots_of_lookup, fun ⟨hmem, hpage⟩ => ?_⟩
  obtain ⟨found, hfound⟩ := exists_lookup_of_mem hmem hpage
  obtain ⟨hother, hbase⟩ := mem_slots_of_lookup hfound
  obtain ⟨slot, hslot⟩ := mem_slots_iff.mp hmem
  obtain ⟨other, hplace⟩ := mem_slots_iff.mp hother
  obtain rfl := h.unshared slot other mapping found hslot hplace (hpage.trans hbase.symm)
  rw [hfound, ← hplace, hslot]

theorem Tidy.lookup_page {machine : Machine} (h : machine.Tidy) {mapping : Mapping}
    (hmem : some mapping ∈ machine.slots) : machine.lookup mapping.page = some mapping :=
  h.lookup_eq_some_iff.mpr
    ⟨hmem, (VirtualAddress.pageBase_of_isPageAligned (h.aligned mapping hmem)).symm⟩

private theorem of_findFinIdx?_eq_some {α : Type} {n : Nat} {p : α → Bool} {xs : Vector α n}
    {i : Fin n} (h : xs.findFinIdx? p = some i) : p xs[i] = true := by
  have hcells : xs.toList.findFinIdx? p = some (i.cast Vector.length_toList.symm) := by
    rw [Vector.findFinIdx?_toList, h]
    rfl
  have hcell := (List.findFinIdx?_eq_some_iff.mp hcells).1
  simpa using hcell

/-- The place that a mapping takes. It held a mapping of the same page, or no other place does and
it was free, or it had to be given up in a full cache. -/
inductive Takes (machine : Machine) (page : VirtualAddress) (slot : CacheSlot) : Prop
  | own (old : Mapping) (hold : machine.slots[slot] = some old) (hpage : old.page = page)
  | free (hfree : machine.slots[slot] = none)
      (habsent : ∀ mapping, some mapping ∈ machine.slots → mapping.page ≠ page)
  | victim (hfull : machine.liveEntries = Layout.cacheSlots)
      (habsent : ∀ mapping, some mapping ∈ machine.slots → mapping.page ≠ page)

theorem exists_takes (machine : Machine) (mapping : Mapping) :
    ∃ slot : CacheSlot, machine.Takes mapping.page slot ∧
      (machine.place mapping).slots = machine.slots.set slot.val (some mapping) slot.isLt := by
  rw [place]
  cases hslot : machine.slotOf? mapping.page with
  | some slot =>
      have hany := of_findFinIdx?_eq_some hslot
      obtain ⟨old, hold, hpage⟩ := (Option.any_eq_true _ _).mp hany
      exact ⟨slot, .own old hold (of_decide_eq_true hpage), rfl⟩
  | none =>
      have habsent : ∀ old, some old ∈ machine.slots → old.page ≠ mapping.page := by
        intro old hmem
        have hnot := Vector.findFinIdx?_eq_none_iff.mp hslot _ hmem
        simpa using hnot
      cases hfree : machine.freeSlot? with
      | some slot =>
          have hnone := of_findFinIdx?_eq_some hfree
          exact ⟨slot, .free (Option.isNone_iff_eq_none.mp hnone) habsent, rfl⟩
      | none =>
          refine ⟨victim (nextSeed machine.seed), .victim ?_ habsent, rfl⟩
          rw [liveEntries_eq_iff]
          intro slot
          have hnot := Vector.findFinIdx?_eq_none_iff.mp hfree _ (Vector.getElem_mem slot.isLt)
          simpa [Option.isSome_iff_ne_none] using hnot

theorem Takes.ne_page {machine : Machine} {page : VirtualAddress} {slot other : CacheSlot}
    (h : machine.Takes page slot) (htidy : machine.Tidy) (hne : other ≠ slot) {old : Mapping}
    (hold : machine.slots[other] = some old) : old.page ≠ page := by
  have hmem := mem_slots_iff.mpr ⟨other, hold⟩
  cases h with
  | own mapping hmapping hpage =>
      intro heq
      exact hne (htidy.unshared other slot old mapping hold hmapping (heq.trans hpage.symm))
  | free hfree habsent => exact habsent old hmem
  | victim hfull habsent => exact habsent old hmem

theorem getElem_set_slots (machine : Machine) (slot other : CacheSlot) (mapping : Mapping) :
    (machine.slots.set slot.val (some mapping) slot.isLt)[other] =
      if other = slot then some mapping else machine.slots[other] := by
  change (machine.slots.set slot.val (some mapping) slot.isLt)[other.val] = _
  rw [Vector.getElem_set]
  exact if_congr (eq_comm.trans Fin.ext_iff.symm) rfl rfl

theorem Tidy.place {machine : Machine} (h : machine.Tidy) {mapping : Mapping}
    (haligned : mapping.page.isPageAligned = true) : (machine.place mapping).Tidy := by
  obtain ⟨slot, htakes, hslots⟩ := machine.exists_takes mapping
  constructor
  · intro old hmem
    rcases mem_slots_place hmem with rfl | hold
    · exact haligned
    · exact h.aligned old hold
  · rw [hslots]
    intro one other first second hfirst hsecond hpage
    rw [getElem_set_slots] at hfirst hsecond
    split at hfirst <;> split at hsecond
    · rename_i hone hother
      exact hone.trans hother.symm
    · rename_i hone hother
      obtain rfl := Option.some.inj hfirst
      exact absurd hpage.symm (htakes.ne_page h hother hsecond)
    · rename_i hone hother
      obtain rfl := Option.some.inj hsecond
      exact absurd hpage (htakes.ne_page h hone hfirst)
    · exact h.unshared one other first second hfirst hsecond hpage

def cachedPages (machine : Machine) : Finset VirtualAddress :=
  ((machine.slots.toList.filterMap id).map Mapping.page).toFinset

theorem mem_cachedPages_iff {machine : Machine} {page : VirtualAddress} :
    page ∈ machine.cachedPages ↔ ∃ mapping, some mapping ∈ machine.slots ∧ mapping.page = page := by
  simp [cachedPages]

theorem card_cachedPages {machine : Machine} (h : machine.Tidy) :
    machine.cachedPages.card = machine.liveEntries := by
  have hnodup : ((machine.slots.toList.filterMap id).map Mapping.page).Nodup := by
    rw [List.Nodup, List.pairwise_map, List.pairwise_filterMap, List.pairwise_iff_getElem]
    intro i j hi hj hlt first hfirst second hsecond hpage
    rw [Vector.length_toList] at hi hj
    have hslot := h.unshared ⟨i, hi⟩ ⟨j, hj⟩ first second (by simpa using hfirst)
      (by simpa using hsecond) hpage
    exact Nat.ne_of_lt hlt (Fin.mk.inj hslot)
  rw [cachedPages, List.toFinset_card_of_nodup hnodup, List.length_map,
    List.length_filterMap_eq_countP]
  rfl

theorem mem_slots_place_self (machine : Machine) (mapping : Mapping) :
    some mapping ∈ (machine.place mapping).slots := by
  obtain ⟨slot, -, hslots⟩ := machine.exists_takes mapping
  rw [mem_slots_iff, hslots]
  exact ⟨slot, by rw [getElem_set_slots, if_pos rfl]⟩

theorem cachedPages_place {machine : Machine} {mapping : Mapping} {slot : CacheSlot}
    (hslots : (machine.place mapping).slots = machine.slots.set slot.val (some mapping) slot.isLt)
    (hspared : ∀ old, machine.slots[slot] = some old → old.page = mapping.page) :
    (machine.place mapping).cachedPages = Insert.insert mapping.page machine.cachedPages := by
  have hplaced := machine.mem_slots_place_self mapping
  ext page
  rw [Finset.mem_insert, mem_cachedPages_iff, mem_cachedPages_iff]
  constructor
  · rintro ⟨old, hold, rfl⟩
    exact (mem_slots_place hold).imp (congrArg Mapping.page) fun hmem => ⟨old, hmem, rfl⟩
  · rintro (rfl | ⟨old, hold, rfl⟩)
    · exact ⟨mapping, hplaced, rfl⟩
    · obtain ⟨other, hother⟩ := mem_slots_iff.mp hold
      by_cases heq : other = slot
      · exact ⟨mapping, hplaced, (hspared old (heq ▸ hother)).symm⟩
      · refine ⟨old, ?_, rfl⟩
        rw [mem_slots_iff, hslots]
        exact ⟨other, by rw [getElem_set_slots, if_neg heq, hother]⟩

/-- What a cache gives up for the page of an address: nothing if it holds the page already or has a
place left, and one mapping of another page if it is full. -/
inductive MakesWay (machine after : Machine) (address : VirtualAddress) : Prop
  | forNothing
      (hroom : machine.lookup address ≠ none ∨ machine.liveEntries < Layout.cacheSlots)
      (hothers : ∀ other, other.pageBase ≠ address.pageBase →
        after.lookup other = machine.lookup other)
  | forOne (habsent : machine.lookup address = none)
      (hfull : machine.liveEntries = Layout.cacheSlots) (lost : Mapping)
      (hlost : machine.lookup lost.page = some lost) (hgone : after.lookup lost.page = none)
      (hothers : ∀ other, other.pageBase ≠ address.pageBase → other.pageBase ≠ lost.page →
        after.lookup other = machine.lookup other)

section Lookup

variable {machine : Machine} {mapping : Mapping} {slot : CacheSlot} (h : machine.Tidy)
  (haligned : mapping.page.isPageAligned = true)
  (hslots : (machine.place mapping).slots = machine.slots.set slot.val (some mapping) slot.isLt)

include h haligned hslots

theorem lookup_place_eq_some_iff {address : VirtualAddress} (hne : address.pageBase ≠ mapping.page)
    {old : Mapping} :
    (machine.place mapping).lookup address = some old ↔
      (∃ other ≠ slot, machine.slots[other] = some old) ∧ old.page = address.pageBase := by
  rw [(h.place haligned).lookup_eq_some_iff, mem_slots_iff, hslots]
  refine and_congr_left fun hpage => exists_congr fun other => ?_
  rw [getElem_set_slots]
  split
  · rename_i heq
    refine iff_of_false (fun hold => ?_) fun hother => hother.1 heq
    rw [← Option.some.inj hold] at hpage
    exact hne hpage.symm
  · rename_i hother
    exact (and_iff_right hother).symm

theorem lookup_place_of_elsewhere {address : VirtualAddress}
    (hne : address.pageBase ≠ mapping.page)
    (hslot : ∀ old, machine.slots[slot] = some old → old.page ≠ address.pageBase) :
    (machine.place mapping).lookup address = machine.lookup address := by
  apply Option.ext
  intro old
  rw [lookup_place_eq_some_iff h haligned hslots hne, h.lookup_eq_some_iff, mem_slots_iff]
  refine and_congr_left fun hpage => exists_congr fun other => and_iff_right_of_imp ?_
  rintro hold rfl
  exact hslot old hold hpage

end Lookup

/-- A mapping that is placed costs a tidy cache no mapping of another page, unless it is full and
does not hold the page: then it costs exactly one. -/
theorem Tidy.makesWay_place {machine : Machine} (h : machine.Tidy) {mapping : Mapping}
    {address : VirtualAddress} (hpage : mapping.page = address.pageBase) :
    machine.MakesWay (machine.place mapping) address := by
  have haligned : mapping.page.isPageAligned = true := hpage ▸ address.isPageAligned_pageBase
  obtain ⟨slot, htakes, hslots⟩ := machine.exists_takes mapping
  have hkeeps : ∀ other : VirtualAddress, other.pageBase ≠ address.pageBase →
      (∀ old, machine.slots[slot] = some old → old.page ≠ other.pageBase) →
        (machine.place mapping).lookup other = machine.lookup other :=
    fun other hne => lookup_place_of_elsewhere h haligned hslots (hpage ▸ hne)
  cases htakes with
  | own old hold hown =>
      obtain ⟨found, hfound⟩ :=
        exists_lookup_of_mem (mem_slots_iff.mpr ⟨slot, hold⟩) (hown.trans hpage)
      refine .forNothing (.inl (by simp [hfound])) fun other hne => hkeeps other hne ?_
      intro another hanother hother
      obtain rfl := Option.some.inj (hold.symm.trans hanother)
      exact hne (hother.symm.trans (hown.trans hpage))
  | free hfree habsent =>
      refine .forNothing (.inr (liveEntries_lt_of_free hfree)) fun other hne =>
        hkeeps other hne fun old hold => ?_
      rw [hfree] at hold
      cases hold
  | victim hfull habsent =>
      obtain ⟨lost, hlost⟩ := Option.isSome_iff_exists.mp (liveEntries_eq_iff.mp hfull slot)
      have hmem := mem_slots_iff.mpr ⟨slot, hlost⟩
      have hbase := VirtualAddress.pageBase_of_isPageAligned (h.aligned lost hmem)
      refine .forOne (lookup_eq_none_iff.mpr (hpage ▸ habsent)) hfull lost (h.lookup_page hmem)
        ?_ fun other hne hother => hkeeps other hne ?_
      · -- Its page had this mapping only, and no other place holds one of it.
        rw [Option.eq_none_iff_forall_ne_some]
        intro old hold
        have hne : lost.page.pageBase ≠ mapping.page := by
          rw [hbase]
          exact habsent lost hmem
        obtain ⟨⟨other, hne, hother⟩, hsame⟩ :=
          (lookup_place_eq_some_iff h haligned hslots hne).mp hold
        exact hne (h.unshared other slot old lost hother hlost (hsame.trans hbase))
      · intro old hold hsame
        obtain rfl := Option.some.inj (hlost.symm.trans hold)
        exact hother hsame.symm

end Machine

end DemandPaging
