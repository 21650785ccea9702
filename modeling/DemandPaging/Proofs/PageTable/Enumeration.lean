import Mathlib.Data.List.FinRange
import Mathlib.Data.List.Nodup
import Mathlib.Data.List.Sort
import DemandPaging.Proofs.PageTable.Representation

namespace DemandPaging

namespace PageNumber

@[simp] theorem firstIndex_ofPlaces (first : FirstIndex) (second : SecondIndex) :
    (ofPlaces first second).firstIndex = first := by
  have hfirst : first.val < 2048 := first.isLt
  have hsecond : second.val < 512 := second.isLt
  apply Fin.ext
  rw [val_firstIndex, toNat_ofPlaces]
  omega

@[simp] theorem secondIndex_ofPlaces (first : FirstIndex) (second : SecondIndex) :
    (ofPlaces first second).secondIndex = second := by
  have hsecond : second.val < 512 := second.isLt
  apply Fin.ext
  rw [val_secondIndex, toNat_ofPlaces]
  omega

theorem place_ofPlaces (first : FirstIndex) (second : SecondIndex) :
    (ofPlaces first second).place = (first, second) := by
  rw [place, firstIndex_ofPlaces, secondIndex_ofPlaces]

theorem ofPlaces_place {page : PageNumber} (h : page.number.toNat < Layout.pageCount) :
    ofPlaces page.firstIndex page.secondIndex = page := by
  rcases page with ⟨number⟩
  have hnumber : number.toNat < 1048576 := h
  have heq : (ofPlaces (firstIndex ⟨number⟩) (secondIndex ⟨number⟩)).number = number := by
    rw [← UInt64.toNat_inj, toNat_ofPlaces, val_firstIndex, val_secondIndex]
    change number.toNat / 512 % 2048 * 512 + number.toNat % 512 = number.toNat
    omega
  exact congrArg PageNumber.mk heq

theorem toNat_ofPlaces_lt (first : FirstIndex) (second : SecondIndex) :
    (ofPlaces first second).number.toNat < Layout.pageCount := by
  have hfirst : first.val < 2048 := first.isLt
  have hsecond : second.val < 512 := second.isLt
  rw [toNat_ofPlaces]
  change first.val * 512 + second.val < 1048576
  omega

theorem place_injective {page other : PageNumber} (hpage : page.number.toNat < Layout.pageCount)
    (hother : other.number.toNat < Layout.pageCount) (h : page.place = other.place) :
    page = other := by
  rw [← ofPlaces_place hpage, ← ofPlaces_place hother]
  rw [place, place, Prod.mk.injEq] at h
  rw [h.1, h.2]

end PageNumber

namespace PageTable

theorem mem_pagesAt_iff {table : PageTable} {first : FirstIndex} {page : PageNumber}
    {entry : PageEntry} :
    (page, entry) ∈ table.pagesAt first ↔
      ∃ second : SecondIndex, table.entryAt (first, second) = some entry ∧
        page = .ofPlaces first second := by
  rw [pagesAt]
  cases hblock : table.block? first with
  | none => simp [entryAt, hblock]
  | some block =>
      rw [Option.elim_some, pagesOf, List.mem_filterMap]
      constructor
      · rintro ⟨second, -, hentry⟩
        obtain ⟨old, hold, heq⟩ := Option.map_eq_some_iff.mp hentry
        obtain ⟨rfl, rfl⟩ := Prod.mk.inj heq
        exact ⟨second, by rw [entryAt, hblock, Option.bind_some]; exact hold, rfl⟩
      · rintro ⟨second, hentry, rfl⟩
        rw [entryAt, hblock, Option.bind_some] at hentry
        exact ⟨second, List.mem_finRange second, Option.map_eq_some_iff.mpr ⟨entry, hentry, rfl⟩⟩

theorem mem_mappedPages_iff {table : PageTable} {page : PageNumber} {entry : PageEntry} :
    (page, entry) ∈ table.mappedPages ↔
      page.number.toNat < Layout.pageCount ∧ table.find? page = some entry := by
  rw [mappedPages, List.mem_flatMap]
  constructor
  · rintro ⟨first, -, hmem⟩
    obtain ⟨second, hentry, rfl⟩ := mem_pagesAt_iff.mp hmem
    refine ⟨PageNumber.toNat_ofPlaces_lt first second, ?_⟩
    rwa [find?_eq_entryAt, PageNumber.place_ofPlaces]
  · rintro ⟨hpage, hfind⟩
    exact ⟨page.firstIndex, List.mem_finRange _,
      mem_pagesAt_iff.mpr ⟨page.secondIndex, hfind, (PageNumber.ofPlaces_place hpage).symm⟩⟩

theorem exists_mem_mappedPages {table : PageTable} {page : PageNumber} {entry : PageEntry}
    (h : table.find? page = some entry) :
    ∃ other : PageNumber, other.place = page.place ∧ (other, entry) ∈ table.mappedPages := by
  refine ⟨.ofPlaces page.firstIndex page.secondIndex, PageNumber.place_ofPlaces _ _, ?_⟩
  refine mem_mappedPages_iff.mpr ⟨PageNumber.toNat_ofPlaces_lt _ _, ?_⟩
  rwa [find?_eq_entryAt, PageNumber.place_ofPlaces]

theorem pairwise_mappedPages (table : PageTable) :
    table.mappedPages.Pairwise fun a b => a.1.number.toNat < b.1.number.toNat := by
  rw [mappedPages, List.pairwise_flatMap]
  constructor
  · intro first _
    rw [pagesAt]
    cases table.block? first with
    | none => exact List.Pairwise.nil
    | some block =>
        rw [Option.elim_some, pagesOf, List.pairwise_filterMap]
        apply (List.pairwise_lt_finRange Layout.secondLevelEntries).imp
        intro second other hlt a ha b hb
        obtain ⟨-, -, rfl⟩ := Option.map_eq_some_iff.mp ha
        obtain ⟨-, -, rfl⟩ := Option.map_eq_some_iff.mp hb
        rw [PageNumber.toNat_ofPlaces, PageNumber.toNat_ofPlaces]
        exact Nat.add_lt_add_left hlt _
  · apply (List.pairwise_lt_finRange Layout.firstLevelEntries).imp
    rintro first other hlt ⟨page, entry⟩ ha ⟨another, further⟩ hb
    obtain ⟨second, -, rfl⟩ := mem_pagesAt_iff.mp ha
    obtain ⟨place, -, rfl⟩ := mem_pagesAt_iff.mp hb
    have hsecond : second.val < 512 := second.isLt
    have hplaces : first.val < other.val := hlt
    simp only [PageNumber.toNat_ofPlaces]
    omega

theorem nodup_places (table : PageTable) :
    (table.mappedPages.map fun item => item.1.place).Nodup := by
  rw [List.Nodup, List.pairwise_map]
  apply table.pairwise_mappedPages.imp_of_mem
  rintro ⟨page, entry⟩ ⟨other, another⟩ hpage hother hlt heq
  have := PageNumber.place_injective (mem_mappedPages_iff.mp hpage).1
    (mem_mappedPages_iff.mp hother).1 heq
  rw [this] at hlt
  exact Nat.lt_irrefl _ hlt

private theorem filterMap_getElem?_range {α : Type} (items : List α) :
    (List.range items.length).filterMap (fun i => items[i]?) = items := by
  induction items with
  | nil => rfl
  | cons item rest ih =>
      rw [List.length_cons, List.range_succ_eq_map,
        List.filterMap_cons_some List.getElem?_cons_zero,
        List.filterMap_map]
      exact congrArg (item :: ·) ih

theorem blocks_perm {table : PageTable} (h : table.WellFormed) :
    ((List.finRange Layout.firstLevelEntries).filterMap table.block?).Perm table.blocks.toList := by
  let positions := (List.finRange Layout.firstLevelEntries).filterMap fun first =>
    (table.position? first).map UInt16.toNat
  have hnodup : positions.Nodup := by
    apply (List.nodup_finRange _).filterMap
    intro first other position hfirst hother
    obtain ⟨index, hplace, rfl⟩ := Option.map_eq_some_iff.mp hfirst
    obtain ⟨another, hsame, hnat⟩ := Option.map_eq_some_iff.mp hother
    obtain rfl := UInt16.toNat_inj.mp hnat
    exact h.unshared first other another hplace hsame
  have hperm : positions.Perm (List.range table.blocks.toList.length) := by
    rw [List.perm_ext_iff_of_nodup hnodup List.nodup_range]
    intro position
    rw [List.mem_range, Array.length_toList, List.mem_filterMap]
    constructor
    · rintro ⟨first, -, hplace⟩
      obtain ⟨index, hindex, rfl⟩ := Option.map_eq_some_iff.mp hplace
      exact h.served first index hindex
    · intro hposition
      obtain ⟨first, index, hplace, hnat⟩ := h.reached position hposition
      exact ⟨first, List.mem_finRange first, Option.map_eq_some_iff.mpr ⟨index, hplace, hnat⟩⟩
  have hblocks : (List.finRange Layout.firstLevelEntries).filterMap table.block? =
      positions.filterMap fun position => table.blocks.toList[position]? := by
    rw [List.filterMap_filterMap]
    apply congrArg fun f => List.filterMap f (List.finRange Layout.firstLevelEntries)
    funext first
    rw [block?]
    cases table.position? first with
    | none => rfl
    | some index => simp
  rw [hblocks]
  exact (hperm.filterMap _).trans (List.Perm.of_eq (filterMap_getElem?_range _))

private theorem entries_pagesOf (first : FirstIndex) (block : Block) :
    (pagesOf first block).map Prod.snd = block.entries := by
  have hcells : block.toList =
      (List.finRange Layout.secondLevelEntries).map fun second => block[second] := by
    apply List.ext_getElem
    · simp
    · intro i hi hj
      simp
  rw [pagesOf, List.map_filterMap, Block.entries, hcells, List.filterMap_map]
  apply congrArg fun f => List.filterMap f (List.finRange Layout.secondLevelEntries)
  funext second
  rw [Option.map_map]
  exact Option.map_id'

theorem entries_perm {table : PageTable} (h : table.WellFormed) :
    (table.mappedPages.map Prod.snd).Perm (table.blocks.toList.flatMap Block.entries) := by
  have hpages : ∀ first, (table.pagesAt first).map Prod.snd =
      (table.block? first).toList.flatMap Block.entries := by
    intro first
    rw [pagesAt]
    cases table.block? first with
    | none => rfl
    | some block =>
        rw [Option.elim_some, entries_pagesOf, Option.toList_some, List.flatMap_singleton]
  rw [mappedPages, List.map_flatMap]
  simp only [hpages]
  rw [← List.flatMap_assoc, ← List.filterMap_eq_flatMap_toList]
  exact (blocks_perm h).flatMap_right _

theorem frames_perm {table : PageTable} (h : table.WellFormed) :
    (table.mappedPages.map fun item => item.2.frame).Perm table.frames := by
  have hframes : table.frames =
      (table.blocks.toList.flatMap Block.entries).map PageEntry.frame := by
    rw [frames, List.map_flatMap]
  have hentries := (entries_perm h).map PageEntry.frame
  rw [List.map_map] at hentries
  rw [hframes]
  exact hentries

theorem mappedCount_eq_length_frames (table : PageTable) :
    table.mappedCount = table.frames.length := by
  rw [mappedCount, frames]
  induction table.blocks.toList with
  | nil => rfl
  | cons block rest ih =>
      rw [List.foldr_cons, ih, List.flatMap_cons, List.length_append, List.length_map]

theorem length_mappedPages {table : PageTable} (h : table.WellFormed) :
    table.mappedPages.length = table.mappedCount := by
  rw [mappedCount_eq_length_frames, ← (frames_perm h).length_eq, List.length_map]

section Scan

/-- The entries that are found if the pages of the user are looked up one after the other. -/
def scan (table : PageTable) : List (PageNumber × PageEntry) :=
  (List.range Layout.pageCount).filterMap fun number =>
    (table.find? ⟨.ofNat number⟩).map fun entry => (⟨.ofNat number⟩, entry)

private theorem toNat_ofNat_of_lt {number : Nat} (h : number < Layout.pageCount) :
    (UInt64.ofNat number).toNat = number :=
  UInt64.toNat_ofNat_of_lt' (Nat.lt_trans h (by decide))

theorem mem_scan_iff {table : PageTable} {page : PageNumber} {entry : PageEntry} :
    (page, entry) ∈ table.scan ↔
      page.number.toNat < Layout.pageCount ∧ table.find? page = some entry := by
  rw [scan, List.mem_filterMap]
  constructor
  · rintro ⟨number, hnumber, hfound⟩
    obtain ⟨found, hfind, hitem⟩ := Option.map_eq_some_iff.mp hfound
    obtain ⟨rfl, rfl⟩ := Prod.mk.inj hitem
    have hlt := List.mem_range.mp hnumber
    exact ⟨(toNat_ofNat_of_lt hlt).trans_lt hlt, hfind⟩
  · rintro ⟨hpage, hfind⟩
    refine ⟨page.number.toNat, List.mem_range.mpr hpage, ?_⟩
    rw [UInt64.ofNat_toNat, hfind]
    rfl

theorem pairwise_scan (table : PageTable) :
    table.scan.Pairwise fun a b => a.1.number.toNat < b.1.number.toNat := by
  rw [scan, List.pairwise_filterMap]
  apply List.pairwise_lt_range.imp_of_mem
  intro number other hnumber hother hlt a ha b hb
  obtain ⟨-, -, rfl⟩ := Option.map_eq_some_iff.mp ha
  obtain ⟨-, -, rfl⟩ := Option.map_eq_some_iff.mp hb
  rwa [toNat_ofNat_of_lt (List.mem_range.mp hnumber), toNat_ofNat_of_lt (List.mem_range.mp hother)]

/-- The list of mapped pages is known from look-ups alone. In which order the blocks were made does
not show in it. -/
theorem mappedPages_eq_scan (table : PageTable) : table.mappedPages = table.scan := by
  have hirrefl : Std.Irrefl fun a b : PageNumber × PageEntry =>
      a.1.number.toNat < b.1.number.toNat := ⟨fun a => Nat.lt_irrefl _⟩
  have hantisymm : Std.Antisymm fun a b : PageNumber × PageEntry =>
      a.1.number.toNat < b.1.number.toNat := ⟨fun a b hab hba => absurd hba (Nat.lt_asymm hab)⟩
  apply table.pairwise_mappedPages.eq_of_mem_iff table.pairwise_scan
  rintro ⟨page, entry⟩
  rw [mem_mappedPages_iff, mem_scan_iff]

theorem length_mappedPages_eq_countP (table : PageTable) :
    table.mappedPages.length =
      (List.range Layout.pageCount).countP fun number => table.contains ⟨.ofNat number⟩ := by
  rw [mappedPages_eq_scan, scan, List.length_filterMap_eq_countP]
  apply List.countP_congr
  intro number _
  rw [Option.isSome_map, contains]

end Scan

section WithBlock

variable {table : PageTable} (h : table.WellFormed)

include h

theorem pagesAt_addBlock {first : FirstIndex} (habsent : table.position? first = none)
    (other : FirstIndex) : (table.addBlock first).pagesAt other = table.pagesAt other := by
  rw [pagesAt, block?_addBlock h habsent, pagesAt]
  split
  · rename_i heq
    rw [block?, heq, habsent, Option.elim_some, pagesOf]
    simp only [Block.getElem_empty, Option.map_none, List.filterMap_none]
    rfl
  · rfl

theorem mappedPages_withBlock (first : FirstIndex) :
    (table.withBlock first).mappedPages = table.mappedPages := by
  rw [withBlock]
  split
  · rfl
  · rename_i habsent
    rw [mappedPages, funext (pagesAt_addBlock h (by simpa using habsent)), mappedPages]

end WithBlock

theorem mappedCount_withBlock (table : PageTable) (first : FirstIndex) :
    (table.withBlock first).mappedCount = table.mappedCount := by
  rw [mappedCount_eq_length_frames, frames_withBlock, mappedCount_eq_length_frames]

end PageTable

end DemandPaging
