import Mathlib.Algebra.Order.BigOperators.Group.List
import Mathlib.Algebra.Order.Group.Nat
import Mathlib.Data.List.Induction
import DemandPaging.Proofs.Agreement
import DemandPaging.Proofs.Declarations
import DemandPaging.Proofs.Fault
import DemandPaging.Proofs.Interrupts

namespace DemandPaging

/-- The second list is the first one in another order, in which elements in conflict stand as they
did. The marks tell equal elements apart, and they grow along the first list. -/
def Reorders {α : Type} (conflict : α → α → Prop) (xs ys : List α) : Prop :=
  ∃ marked moved : List (α × Nat), marked.map Prod.fst = xs ∧ moved.map Prod.fst = ys ∧
    moved.Perm marked ∧ (marked.Pairwise fun a b => a.2 < b.2) ∧
      moved.Pairwise fun a b => conflict a.1 b.1 → a.2 < b.2

namespace Reorders

variable {α β : Type} {conflict : α → α → Prop} {xs ys : List α}

theorem refl (xs : List α) : Reorders conflict xs xs := by
  have hmarked : xs.zipIdx.Pairwise fun a b => a.2 < b.2 := by
    rw [← List.pairwise_map (R := (· < ·)), List.zipIdx_map_snd]
    exact List.pairwise_lt_range' 1
  refine ⟨_, _, List.zipIdx_map_fst 0 xs, List.zipIdx_map_fst 0 xs, .refl _, hmarked,
    List.Pairwise.imp ?_ hmarked⟩
  intro a b hab _
  exact hab

theorem filter_eq (h : Reorders conflict xs ys) {p : α → Bool}
    (hp : ∀ a b, p a = true → p b = true → conflict a b) : ys.filter p = xs.filter p := by
  obtain ⟨marked, moved, rfl, rfl, hperm, hmarked, hmoved⟩ := h
  have hsorted : (moved.filter (p ∘ Prod.fst)).Pairwise fun a b => a.2 < b.2 := by
    rw [List.pairwise_filter]
    exact hmoved.imp fun hab ha hb => hab (hp _ _ ha hb)
  have hsame : moved.filter (p ∘ Prod.fst) = marked.filter (p ∘ Prod.fst) :=
    (hperm.filter _).eq_of_pairwise
      (fun a b _ _ hab hba => absurd (Nat.lt_trans hab hba) (Nat.lt_irrefl a.2)) hsorted
      (hmarked.filter _)
  rw [List.filter_map, List.filter_map, hsame]

theorem filterMap (h : Reorders conflict xs ys) {other : β → β → Prop} (f : α → Option β)
    (hf : ∀ a b, ∀ c ∈ f a, ∀ d ∈ f b, other c d → conflict a b) :
    Reorders other (xs.filterMap f) (ys.filterMap f) := by
  obtain ⟨marked, moved, rfl, rfl, hperm, hmarked, hmoved⟩ := h
  let keep : α × Nat → Option (β × Nat) := fun a => (f a.1).map fun b => (b, a.2)
  have hkept : ∀ marks : List (α × Nat),
      (marks.filterMap keep).map Prod.fst = (marks.map Prod.fst).filterMap f := by
    intro marks
    rw [List.map_filterMap, List.filterMap_map]
    apply congrArg (List.filterMap · marks)
    funext a
    simp only [keep, Option.map_map, Function.comp_def, Option.map_id']
  refine ⟨_, _, hkept marked, hkept moved, hperm.filterMap keep, ?_, ?_⟩
  · refine hmarked.filterMap keep fun a b hab c hc d hd => ?_
    obtain ⟨image, -, rfl⟩ := Option.map_eq_some_iff.mp hc
    obtain ⟨another, -, rfl⟩ := Option.map_eq_some_iff.mp hd
    exact hab
  · refine hmoved.filterMap keep fun a b hab c hc d hd hcd => ?_
    obtain ⟨image, himage, rfl⟩ := Option.map_eq_some_iff.mp hc
    obtain ⟨another, hanother, rfl⟩ := Option.map_eq_some_iff.mp hd
    exact hab (hf _ _ _ himage _ hanother hcd)

theorem map (h : Reorders conflict xs ys) {other : β → β → Prop} (f : α → β)
    (hf : ∀ a b, other (f a) (f b) → conflict a b) : Reorders other (xs.map f) (ys.map f) := by
  rw [← List.filterMap_eq_map]
  refine h.filterMap (some ∘ f) ?_
  rintro a b c ⟨⟩ d ⟨⟩ hcd
  exact hf a b hcd

theorem append (h : Reorders conflict xs ys) {later moved : List α}
    (hlater : Reorders conflict later moved) : Reorders conflict (xs ++ later) (ys ++ moved) := by
  obtain ⟨older, old, rfl, rfl, hperm, hmarked, hmoved⟩ := h
  obtain ⟨newer, new, rfl, rfl, hpermNew, hmarkedNew, hmovedNew⟩ := hlater
  obtain ⟨bound, hbound⟩ : ∃ bound, ∀ a ∈ older, a.2 < bound := by
    refine ⟨(older.map Prod.snd).sum + 1, fun a ha => Nat.lt_succ_of_le ?_⟩
    exact List.single_le_sum (fun _ _ => Nat.zero_le _) _ (List.mem_map_of_mem ha)
  let shift : α × Nat → α × Nat := fun a => (a.1, bound + a.2)
  have hshift : ∀ marks : List (α × Nat), (marks.map shift).map Prod.fst = marks.map Prod.fst := by
    intro marks
    rw [List.map_map]
    rfl
  have hnew : ∀ a ∈ older, ∀ b ∈ newer.map shift, a.2 < b.2 := by
    intro a ha b hb
    obtain ⟨c, -, rfl⟩ := List.mem_map.mp hb
    exact Nat.lt_of_lt_of_le (hbound a ha) (Nat.le_add_right bound c.2)
  refine ⟨older ++ newer.map shift, old ++ new.map shift, ?_, ?_,
    hperm.append (hpermNew.map shift), ?_, ?_⟩
  · rw [List.map_append, hshift]
  · rw [List.map_append, hshift]
  · refine List.pairwise_append.mpr ⟨hmarked, ?_, hnew⟩
    exact List.pairwise_map.mpr (hmarkedNew.imp fun hab => Nat.add_lt_add_left hab bound)
  · refine List.pairwise_append.mpr ⟨hmoved, ?_, fun a ha b hb _ => ?_⟩
    · exact List.pairwise_map.mpr
        (hmovedNew.imp fun hab hconflict => Nat.add_lt_add_left (hab hconflict) bound)
    · exact hnew a (hperm.subset ha) b ((hpermNew.map shift).subset hb)

end Reorders

namespace Region

def Overlaps (region other : Region) : Prop :=
  ∃ page, region.contains page = true ∧ other.contains page = true

theorem overlaps_iff {region other : Region} :
    region.Overlaps other ↔
      max (region.base.word.toNat / Layout.pageSize) (other.base.word.toNat / Layout.pageSize) <
        min (region.base.word.toNat / Layout.pageSize + region.size.toNat / Layout.pageSize)
          (other.base.word.toNat / Layout.pageSize + other.size.toNat / Layout.pageSize) := by
  rw [Overlaps]
  simp only [contains_iff, Covers, Nat.max_lt, Nat.lt_min]
  constructor
  · rintro ⟨page, hregion, hother⟩
    omega
  · intro hless
    have hbase := region.base.toNat_word_lt
    have hstart := other.base.toNat_word_lt
    have hpage : max (region.base.word.toNat / Layout.pageSize)
        (other.base.word.toNat / Layout.pageSize) < 2 ^ 64 := by
      simp only [Layout.pageSize]
      omega
    refine ⟨⟨.ofNat (max (region.base.word.toNat / Layout.pageSize)
      (other.base.word.toNat / Layout.pageSize))⟩, ?_⟩
    simp only [UInt64.toNat_ofNat_of_lt' hpage]
    omega

instance (region other : Region) : Decidable (region.Overlaps other) :=
  decidable_of_iff _ overlaps_iff.symm

section Latest

variable {regions others : List Region} {page : PageNumber}

theorem deciding?_eq_getLast? (regions : List Region) (page : PageNumber) :
    deciding? regions page = (regions.filter (contains · page)).getLast? :=
  List.getLast?_filter.symm

/-- Declarations may change places unless they share a page. -/
theorem deciding?_of_reorders (h : Reorders Overlaps regions others) (page : PageNumber) :
    deciding? others page = deciding? regions page := by
  have hpage : others.filter (contains · page) = regions.filter (contains · page) :=
    h.filter_eq fun _ _ hregion hother => ⟨page, hregion, hother⟩
  rw [deciding?_eq_getLast?, deciding?_eq_getLast?, hpage]

/-- Which of the declared regions decides about a page, by its number in the order of declarations.
This tells equal regions apart. -/
def decider? (regions : List Region) (page : PageNumber) : Option Nat :=
  (regions.zipIdx.reverse.find? fun declared => declared.1.contains page).map Prod.snd

theorem decider?_append (regions : List Region) (region : Region) (page : PageNumber) :
    decider? (regions ++ [region]) page =
      if region.contains page then some regions.length else decider? regions page := by
  rw [decider?, List.zipIdx_append, List.reverse_append]
  simp only [List.zipIdx_cons, List.zipIdx_nil, List.reverse_cons, List.reverse_nil,
    List.nil_append, List.cons_append, List.find?_cons, Nat.zero_add]
  cases region.contains page <;> rfl

theorem decider?_lt {index : Nat} (h : decider? regions page = some index) :
    index < regions.length := by
  obtain ⟨⟨region, number⟩, hfound, rfl⟩ := Option.map_eq_some_iff.mp h
  exact List.snd_lt_of_mem_zipIdx (List.mem_reverse.mp (List.mem_of_find?_eq_some hfound))

theorem deciding?_eq_bind (regions : List Region) (page : PageNumber) :
    deciding? regions page = (decider? regions page).bind fun index => regions[index]? := by
  induction regions using List.reverseRecOn with
  | nil => rfl
  | append_singleton regions region ih =>
      rw [deciding?_append, decider?_append]
      split
      · rw [Option.bind_some, List.getElem?_concat_length]
      · rw [ih]
        refine Option.bind_congr fun index hindex => ?_
        exact (List.getElem?_append_left (decider?_lt hindex)).symm

private theorem getElem?_concat_iff {α : Type} {xs : List α} {last x : α} {index : Nat} :
    (xs ++ [last])[index]? = some x ↔ xs[index]? = some x ∨ index = xs.length ∧ last = x := by
  rcases Nat.lt_trichotomy index xs.length with hless | rfl | hmore
  · simp [List.getElem?_append_left hless, Nat.ne_of_lt hless]
  · simp
  · have hlength : (xs ++ [last]).length ≤ index := by
      rwa [List.length_append, List.length_singleton]
    simp [List.getElem?_eq_none hlength, List.getElem?_eq_none (Nat.le_of_lt hmore),
      Nat.ne_of_gt hmore]

theorem decider?_eq_some_iff {index : Nat} :
    decider? regions page = some index ↔
      ∃ region, regions[index]? = some region ∧ region.contains page = true ∧
        ∀ later other, index < later → regions[later]? = some other →
          other.contains page = false := by
  induction regions using List.reverseRecOn with
  | nil => simp [decider?]
  | append_singleton regions last ih =>
      have hlt : ∀ {number : Nat} {region : Region}, regions[number]? = some region →
          number < regions.length := fun h => (List.getElem?_eq_some_iff.mp h).1
      simp only [getElem?_concat_iff, decider?_append]
      cases hcontains : last.contains page with
      | true =>
          rw [if_pos rfl, Option.some.injEq]
          constructor
          · rintro rfl
            refine ⟨last, .inr ⟨rfl, rfl⟩, hcontains, fun later other hlater hother => ?_⟩
            rcases hother with hother | ⟨rfl, -⟩
            · exact absurd hlater (Nat.lt_asymm (hlt hother))
            · exact absurd hlater (Nat.lt_irrefl _)
          · rintro ⟨region, hregion | ⟨rfl, -⟩, -, hnone⟩
            · rw [hnone _ last (hlt hregion) (.inr ⟨rfl, rfl⟩)] at hcontains
              contradiction
            · rfl
      | false =>
          rw [if_neg Bool.false_ne_true, ih]
          constructor
          · rintro ⟨region, hregion, hpage, hnone⟩
            refine ⟨region, .inl hregion, hpage, fun later other hlater hother => ?_⟩
            rcases hother with hother | ⟨-, rfl⟩
            · exact hnone later other hlater hother
            · exact hcontains
          · rintro ⟨region, hregion | ⟨-, rfl⟩, hpage, hnone⟩
            · exact ⟨region, hregion, hpage,
                fun later other hlater hother => hnone later other hlater (.inl hother)⟩
            · rw [hcontains] at hpage
              contradiction

/-- What it means that of the regions that hold a page the one declared last decides. -/
structure LatestDecides (regions : List Region) (page : PageNumber) : Prop where
  decider_iff : ∀ index, decider? regions page = some index ↔
    ∃ region, regions[index]? = some region ∧ region.contains page = true ∧
      ∀ later other, index < later → regions[later]? = some other → other.contains page = false
  deciding : deciding? regions page = (decider? regions page).bind fun index => regions[index]?
  none_iff : deciding? regions page = none ↔ ∀ region ∈ regions, region.contains page = false
  added : ∀ region, deciding? (regions ++ [region]) page =
    if region.contains page then some region else deciding? regions page
  changed_iff : ∀ region, decider? (regions ++ [region]) page ≠ decider? regions page ↔
    region.contains page = true

theorem latestDecides (regions : List Region) (page : PageNumber) :
    LatestDecides regions page where
  decider_iff _ := decider?_eq_some_iff
  deciding := deciding?_eq_bind regions page
  none_iff := by
    simp [deciding?, List.find?_eq_none]
  added region := deciding?_append regions region page
  changed_iff region := by
    rw [decider?_append]
    split
    · rename_i hcontains
      refine iff_of_true (fun hsame => ?_) hcontains
      exact Nat.lt_irrefl _ (decider?_lt hsame.symm)
    · rename_i hcontains
      exact iff_of_false (fun hne => hne rfl) hcontains

end Latest

end Region

namespace Declaration

def added? (declaration : Declaration) : Option Region :=
  declaration.region.toOption

def Overlaps (declaration other : Declaration) : Prop :=
  ∃ region ∈ declaration.added?, ∃ another ∈ other.added?, region.Overlaps another

instance (declaration other : Declaration) : Decidable (declaration.Overlaps other) :=
  inferInstanceAs
    (Decidable (∃ region ∈ declaration.added?, ∃ another ∈ other.added?, region.Overlaps another))

end Declaration

namespace AddressSpace

/-- Spaces with the same declarations, in an order that differs only for those that share no
page. -/
structure DeclaresAlike (one other : AddressSpace) : Prop where
  regions : Reorders Region.Overlaps one.regions other.regions
  stackBase : other.stackBase = one.stackBase
  loading : other.loading = one.loading

def declaring (space : AddressSpace) (declarations : List Declaration) : AddressSpace :=
  { space with regions := space.regions ++ declarations.filterMap Declaration.added? }

namespace DeclaresAlike

variable {one other : AddressSpace}

theorem deciding?_eq (h : DeclaresAlike one other) (page : PageNumber) :
    Region.deciding? other.regions page = Region.deciding? one.regions page :=
  Region.deciding?_of_reorders h.regions page

theorem declaring (h : DeclaresAlike one other) {declarations others : List Declaration}
    (hmoved : Reorders Declaration.Overlaps declarations others) :
    DeclaresAlike (one.declaring declarations) (other.declaring others) where
  regions := h.regions.append (hmoved.filterMap Declaration.added?
    fun _ _ region hregion another hanother hoverlap =>
      ⟨region, hregion, another, hanother, hoverlap⟩)
  stackBase := h.stackBase
  loading := h.loading

theorem opened (h : DeclaresAlike one other) : DeclaresAlike one.opened other.opened where
  regions := h.regions.map Region.widen fun _ _ hoverlap => hoverlap
  stackBase := h.stackBase
  loading := rfl

theorem closed (h : DeclaresAlike one other) : DeclaresAlike one.closed other.closed where
  regions := h.regions.map Region.restore fun _ _ hoverlap => hoverlap
  stackBase := h.stackBase
  loading := rfl

end DeclaresAlike

/-- A fault at a word would map a page: its page is not mapped, and there is a frame left. -/
structure AwaitsPage (t : AddressSpace × FramePool) (word : UInt64) : Prop where
  unmapped : ∀ address, VirtualAddress.ofWord? word = some address →
    t.1.table.contains address.pageNumber = false
  room : t.2.outstanding < t.2.limit

section Resolve

variable {one other : AddressSpace × FramePool} {owned others : List PhysicalAddress}

theorem agrees_resolve_of_awaits (hone : PageTable.Backed owned (part one))
    (hother : PageTable.Backed others (part other)) {word : UInt64} {address : VirtualAddress}
    (hword : VirtualAddress.ofWord? word = some address) (honePage : AwaitsPage one word)
    (hotherPage : AwaitsPage other word)
    (hsame : Region.deciding? other.1.regions address.pageNumber =
      Region.deciding? one.1.regions address.pageNumber) (access : Access) :
    Outcome.Agrees (fun _ _ => True) (fun mapping another => another.outline = mapping.outline)
      (resolve access address.pageNumber one) (resolve access address.pageNumber other) := by
  rcases one with ⟨space, pool⟩
  rcases other with ⟨twin, last⟩
  have hquiet := (aloof_resolve access address.pageNumber).quiet
  rcases denied_or_granted space access address.pageNumber with
    hdenied | ⟨region, hdeciding, hallowed⟩
  · obtain ⟨events, hresolve⟩ := resolve_of_denied pool hdenied
    obtain ⟨seen, htwin⟩ := resolve_of_denied last (hsame ▸ hdenied)
    exact .of_quiet_error hquiet hquiet hresolve htwin trivial
  · have hroom : (space.table.frames ++ owned).length < pool.limit :=
      hone.handedOut.outstanding_eq.symm.trans_lt honePage.room
    have hroomToo : (twin.table.frames ++ others).length < last.limit :=
      hother.handedOut.outstanding_eq.symm.trans_lt hotherPage.room
    obtain ⟨frame, next, events, hresolve, -⟩ := resolve_of_room hdeciding hallowed
      hone.wellFormed hone.handedOut (honePage.unmapped address hword) hroom
    obtain ⟨another, final, seen, htwin, -⟩ := resolve_of_room (hsame.trans hdeciding) hallowed
      hother.wellFormed hother.handedOut (hotherPage.unmapped address hword) hroomToo
    refine .of_quiet_ok hquiet hquiet hresolve htwin ?_ trivial
    simp only [Mapping.outline, PageEntry.isValid_marked, PageEntry.isDirty_marked,
      PageEntry.isValid_fresh]

end Resolve

end AddressSpace

/-- What is seen of a run of an operation: how it ends, and the mappings that it has installed,
apart from frames. -/
def Outcome.seen {σ α : Type} (outcome : Outcome σ α) :
    Except Stop α × List (Nat × VirtualAddress × Bool × Bool) :=
  (outcome.result, installs outcome.events)

theorem Outcome.Agrees.seen_eq {σ τ α : Type} {states : σ → τ → Prop} {one : Outcome σ α}
    {other : Outcome τ α} (h : Agrees states Eq one other) : one.seen = other.seen := by
  rw [seen, seen, h.result_eq, h.installs_eq]

section Faults

variable {n : Nat} {machines others : Machines n}

theorem Processor.installs_install (processor : Processor n) (mapping : Mapping)
    (machines : Machines n) :
    installs (processor.install mapping machines).events =
      [(processor.cache.val, mapping.outline)] := by
  rw [← installs_machineCalls, (processor.issues_install mapping machines).calls]
  rfl

theorem Processor.agrees_install_of_either {processor : Processor n}
    (h : processor.cache = processor.interrupts ∨ machines.Resemble others)
    {mapping another : Mapping} (houtline : another.outline = mapping.outline) :
    Outcome.Agrees (fun _ _ => True) Eq (processor.install mapping machines)
      (processor.install another others) := by
  rcases h with hsame | hresemble
  · have hinstalls : installs (processor.install mapping machines).events =
        installs (processor.install another others).events := by
      rw [processor.installs_install, processor.installs_install, houtline]
    obtain ⟨events, hone⟩ := install_of_same hsame mapping machines
    obtain ⟨seen, hother⟩ := install_of_same hsame another others
    rw [hone, hother] at hinstalls ⊢
    exact .done rfl trivial hinstalls
  · exact (agrees_install processor hresemble houtline).within trivial

namespace Context

variable {one other : AddressSpace × FramePool} {owned rest : List PhysicalAddress} {word : UInt64}

/-- A fault that would map a page is seen to end alike in spaces that declare alike. -/
theorem seen_handleFault_of_awaits (h : one.1.DeclaresAlike other.1)
    (hone : PageTable.Backed owned (AddressSpace.part one))
    (hother : PageTable.Backed rest (AddressSpace.part other))
    (honePage : AddressSpace.AwaitsPage one word) (hotherPage : AddressSpace.AwaitsPage other word)
    {processor : Processor n}
    (hmachines : processor.cache = processor.interrupts ∨ machines.Resemble others)
    (access : Access) :
    (handleFault processor access word (some one, machines)).seen =
      (handleFault processor access word (some other, others)).seen :=
  (agrees_handleFault processor
    (fun _ _ houtline => Processor.agrees_install_of_either hmachines houtline) trivial trivial word
    fun _ hword => AddressSpace.agrees_resolve_of_awaits hone hother hword honePage hotherPage
      (h.deciding?_eq _) access).seen_eq

end Context

end Faults

end DemandPaging
