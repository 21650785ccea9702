import Mathlib.Data.Fintype.Card
import Mathlib.Data.List.Perm.Basic
import DemandPaging.PageTable
import DemandPaging.Proofs.Entry

/-!
The directory of a page table and the arena of its blocks fit together: each place that is present
has a block of its own. Under this condition making a block changes no entry, and inserting an entry
changes the entry of one page.
-/

namespace DemandPaging

def PageNumber.place (page : PageNumber) : FirstIndex × SecondIndex :=
  (page.firstIndex, page.secondIndex)

section First

variable {α β : Type} {p : α → Bool} {f : α → α} {g : α → List β} {items : List α}

private theorem flatMap_of_findIdx?_eq_none (hskipped : ∀ item, p item = false → g item = [])
    (h : items.findIdx? p = none) : items.flatMap g = [] := by
  rw [List.flatMap_eq_nil_iff]
  exact fun item hitem => hskipped item (List.findIdx?_eq_none_iff.mp h item hitem)

private theorem flatMap_modify_first (hskipped : ∀ item, p item = false → g item = [])
    (hfirst : ∀ item, p item = true → g item ≠ [] ∧ g (f item) = (g item).tail) {i : Nat}
    (h : items.findIdx? p = some i) : (items.modify i f).flatMap g = (items.flatMap g).tail := by
  induction items generalizing i with
  | nil => cases h
  | cons item items ih =>
      rw [List.findIdx?_cons] at h
      cases hitem : p item with
      | true =>
          rw [if_pos hitem] at h
          obtain rfl := Option.some.inj h
          obtain ⟨hsome, hlost⟩ := hfirst item hitem
          rw [List.modify_zero_cons, List.flatMap_cons, List.flatMap_cons, hlost,
            List.tail_append_of_ne_nil hsome]
      | false =>
          rw [if_neg (by simp [hitem])] at h
          obtain ⟨j, hj, rfl⟩ := Option.map_eq_some_iff.mp h
          rw [List.modify_succ_cons, List.flatMap_cons, List.flatMap_cons, hskipped item hitem,
            List.nil_append, List.nil_append]
          exact ih hj

end First

namespace Block

@[simp] theorem getElem_empty (second : SecondIndex) : empty[second] = none := by
  simp [empty]

@[simp] theorem entries_empty : empty.entries = [] := by
  simp [empty, entries]

theorem mem_entries_iff {block : Block} {entry : PageEntry} :
    entry ∈ block.entries ↔ ∃ second : SecondIndex, block[second] = some entry := by
  rw [entries, List.mem_filterMap]
  simp only [id_eq, exists_eq_right, Vector.mem_toList_iff, Vector.mem_iff_getElem]
  constructor
  · rintro ⟨second, hsecond, heq⟩
    exact ⟨⟨second, hsecond⟩, heq⟩
  · rintro ⟨second, heq⟩
    exact ⟨second.val, second.isLt, heq⟩

theorem getElem_put (block : Block) (second other : SecondIndex) (entry : PageEntry) :
    (block.put second entry)[other] = if other = second then some entry else block[other] := by
  simp only [put, Fin.getElem_fin, Vector.getElem_set, Fin.ext_iff, eq_comm]

private theorem filterMap_set_perm {cells : List (Option PageEntry)} {i : Nat}
    (h : cells[i]? = some none) (entry : PageEntry) :
    ((cells.set i (some entry)).filterMap id).Perm (entry :: cells.filterMap id) := by
  induction cells generalizing i with
  | nil => simp at h
  | cons cell rest ih =>
      rcases i with - | i
      · obtain rfl : cell = none := by simpa using h
        exact List.Perm.refl _
      · have hrest := ih (i := i) (by simpa using h)
        rcases cell with - | old
        · exact hrest
        · exact (hrest.cons old).trans (List.Perm.swap entry old _)

theorem entries_put_perm {block : Block} {second : SecondIndex} (h : block[second] = none)
    (entry : PageEntry) : (block.put second entry).entries.Perm (entry :: block.entries) := by
  rw [entries, put, Vector.toList_set]
  apply filterMap_set_perm
  simpa using h

theorem any_isSome_iff {block : Block} : block.any Option.isSome = true ↔ block.entries ≠ [] := by
  rw [Vector.any_eq_true', ne_eq, entries, List.filterMap_eq_nil_iff]
  simp [Option.isSome_iff_ne_none]

theorem entries_dropFirst (block : Block) : block.dropFirst.entries = block.entries.tail := by
  have hentries : ∀ other : Block, other.entries = other.toList.flatMap Option.toList :=
    fun other => List.filterMap_eq_flatMap_toList ..
  have hskipped : ∀ cell : Option PageEntry, cell.isSome = false → cell.toList = [] := by
    simp
  rw [dropFirst, hentries, hentries]
  cases hfound : block.toList.findIdx? Option.isSome with
  | none =>
      have hnone := flatMap_of_findIdx?_eq_none hskipped hfound
      simp only [hnone, List.tail_nil]
  | some second =>
      have hset : (block.setIfInBounds second none).toList =
          block.toList.modify second fun _ => none :=
        Vector.toList_setIfInBounds.trans (List.modify_eq_set (fun _ => none) second _).symm
      simp only [hset]
      refine flatMap_modify_first hskipped (fun cell hcell => ?_) hfound
      obtain ⟨entry, rfl⟩ := Option.isSome_iff_exists.mp hcell
      exact ⟨List.cons_ne_nil entry [], rfl⟩

end Block

namespace PageTable

def entryAt (table : PageTable) (place : FirstIndex × SecondIndex) : Option PageEntry :=
  (table.block? place.1).bind fun block => block[place.2]

theorem find?_eq_entryAt (table : PageTable) (page : PageNumber) :
    table.find? page = table.entryAt page.place := rfl

theorem find?_of_place_eq (table : PageTable) {page other : PageNumber}
    (h : page.place = other.place) :
    table.find? page = table.find? other :=
  congrArg table.entryAt h

/-- Each place of the directory that is present names a block of the arena, each block is named by
exactly one place, and all entries are valid. -/
structure WellFormed (table : PageTable) : Prop where
  served : ∀ (first : FirstIndex) (index : UInt16), table.position? first = some index →
    index.toNat < table.blocks.size
  unshared : ∀ (first other : FirstIndex) (index : UInt16), table.position? first = some index →
    table.position? other = some index → first = other
  reached : ∀ position < table.blocks.size, ∃ (first : FirstIndex) (index : UInt16),
    table.position? first = some index ∧ index.toNat = position
  valid : ∀ block ∈ table.blocks, ∀ entry ∈ block.entries, entry.isValid = true

theorem exists_mem_blocks {table : PageTable} {page : PageNumber} {entry : PageEntry}
    (h : table.find? page = some entry) : ∃ block ∈ table.blocks, entry ∈ block.entries := by
  obtain ⟨block, hblock, hentry⟩ := Option.bind_eq_some_iff.mp h
  obtain ⟨index, -, hposition⟩ := Option.bind_eq_some_iff.mp hblock
  exact ⟨block, Array.mem_of_getElem? hposition,
    Block.mem_entries_iff.mpr ⟨page.secondIndex, hentry⟩⟩

theorem frame_mem_frames {table : PageTable} {page : PageNumber} {entry : PageEntry}
    (h : table.find? page = some entry) : entry.frame ∈ table.frames := by
  obtain ⟨block, hblock, hentry⟩ := exists_mem_blocks h
  rw [frames, List.mem_flatMap]
  exact ⟨block, Array.mem_toList_iff.mpr hblock, List.mem_map_of_mem hentry⟩

theorem WellFormed.isValid {table : PageTable} (h : table.WellFormed) {page : PageNumber}
    {entry : PageEntry} (hentry : table.find? page = some entry) : entry.isValid = true := by
  obtain ⟨block, hblock, hmem⟩ := exists_mem_blocks hentry
  exact h.valid block hblock entry hmem

@[simp] theorem position?_empty (pool : PoolId) (first : FirstIndex) :
    (empty pool).position? first = none := by
  simp [position?, empty]

theorem find?_empty (pool : PoolId) (page : PageNumber) : (empty pool).find? page = none := by
  rw [find?, block?, position?_empty]
  rfl

@[simp] theorem frames_empty (pool : PoolId) : (empty pool).frames = [] := by
  simp [frames, empty]

theorem wellFormed_empty (pool : PoolId) : (empty pool).WellFormed where
  served first index h := by simp at h
  unshared first other index h := by simp at h
  reached position h := by simp [empty] at h
  valid block h := by simp [empty] at h

namespace WellFormed

variable {table : PageTable}

theorem exists_places (h : table.WellFormed) :
    ∃ place : Fin table.blocks.size → FirstIndex, Function.Injective place ∧
      ∀ first, (table.position? first).isSome = true ↔ ∃ position, place position = first := by
  have hreached : ∀ position : Fin table.blocks.size, ∃ (first : FirstIndex) (index : UInt16),
      table.position? first = some index ∧ index.toNat = position :=
    fun position => h.reached position position.isLt
  choose place index hplace hindex using hreached
  refine ⟨place, fun i j heq => ?_, fun first => ⟨fun hpresent => ?_, ?_⟩⟩
  · have hsame : index i = index j := by
      have := (hplace i).symm.trans (heq ▸ hplace j)
      exact Option.some.inj this
    apply Fin.ext
    rw [← hindex i, hsame, hindex j]
  · obtain ⟨found, hfound⟩ := Option.isSome_iff_exists.mp hpresent
    have hserved := h.served first found hfound
    have hsame : index ⟨found.toNat, hserved⟩ = found := UInt16.toNat_inj.mp (hindex _)
    exact ⟨_, h.unshared _ first found ((hplace _).trans (congrArg some hsame)) hfound⟩
  · rintro ⟨position, rfl⟩
    rw [hplace position]
    rfl

theorem size_blocks_lt (h : table.WellFormed) {first : FirstIndex}
    (habsent : table.position? first = none) :
    table.blocks.size < Layout.firstLevelEntries := by
  obtain ⟨place, hinj, hpresent⟩ := h.exists_places
  have hmiss : first ∉ Set.range place := by
    intro hmem
    have hsome := (hpresent first).mpr hmem
    rw [habsent] at hsome
    cases hsome
  simpa using Fintype.card_lt_of_injective_of_notMem place hinj hmiss

theorem toNat_size_blocks (h : table.WellFormed) {first : FirstIndex}
    (habsent : table.position? first = none) :
    (UInt16.ofNat table.blocks.size).toNat = table.blocks.size := by
  have := h.size_blocks_lt habsent
  rw [UInt16.toNat_ofNat', Nat.mod_eq_of_lt (Nat.lt_trans this (by decide))]

theorem exists_block (h : table.WellFormed) {first : FirstIndex} {index : UInt16}
    (hplace : table.position? first = some index) :
    ∃ block, table.blocks[index.toNat]? = some block ∧ table.block? first = some block := by
  have hserved := h.served first index hplace
  have hblock := Array.getElem?_eq_getElem hserved
  exact ⟨_, hblock, by rw [block?, hplace, Option.bind_some, hblock]⟩

end WellFormed

theorem position?_addBlock (table : PageTable) (first other : FirstIndex) :
    (table.addBlock first).position? other =
      if other = first then some (.ofNat table.blocks.size) else table.position? other := by
  simp only [position?, addBlock, Fin.getElem_fin, Vector.getElem_set, Fin.ext_iff, eq_comm]

theorem block?_addBlock {table : PageTable} (h : table.WellFormed) {first : FirstIndex}
    (habsent : table.position? first = none) (other : FirstIndex) :
    (table.addBlock first).block? other =
      if other = first then some Block.empty else table.block? other := by
  rw [block?, position?_addBlock]
  by_cases heq : other = first
  · rw [if_pos heq, if_pos heq, Option.bind_some, h.toNat_size_blocks habsent]
    simp [addBlock]
  · rw [if_neg heq, if_neg heq, block?]
    cases hplace : table.position? other with
    | none => rfl
    | some index =>
        have hserved := h.served other index hplace
        simp [addBlock, Array.getElem?_push, Nat.ne_of_lt hserved]

theorem find?_addBlock {table : PageTable} (h : table.WellFormed) {first : FirstIndex}
    (habsent : table.position? first = none) (page : PageNumber) :
    (table.addBlock first).find? page = table.find? page := by
  rw [find?, block?_addBlock h habsent]
  by_cases heq : page.firstIndex = first
  · rw [if_pos heq, Option.bind_some, Block.getElem_empty, find?, block?, heq, habsent]
    rfl
  · rw [if_neg heq, find?]

theorem wellFormed_addBlock {table : PageTable} (h : table.WellFormed) {first : FirstIndex}
    (habsent : table.position? first = none) : (table.addBlock first).WellFormed := by
  have hsize : (table.addBlock first).blocks.size = table.blocks.size + 1 := Array.size_push _
  have hindex := h.toNat_size_blocks habsent
  have hold : ∀ (other : FirstIndex) (index : UInt16), table.position? other = some index →
      index ≠ .ofNat table.blocks.size := by
    intro other index hplace heq
    have := h.served other index hplace
    rw [heq, hindex] at this
    exact Nat.lt_irrefl _ this
  constructor
  · intro other index hplace
    rw [position?_addBlock] at hplace
    rw [hsize]
    split at hplace
    · obtain rfl := Option.some.inj hplace
      rw [hindex]
      exact Nat.lt_succ_self _
    · exact Nat.lt_succ_of_lt (h.served other index hplace)
  · intro other another index hplace hsame
    rw [position?_addBlock] at hplace hsame
    split at hplace <;> split at hsame
    · rename_i hother hanother
      exact hother.trans hanother.symm
    · exact absurd (Option.some.inj hplace).symm (hold another index hsame)
    · exact absurd (Option.some.inj hsame).symm (hold other index hplace)
    · exact h.unshared other another index hplace hsame
  · intro position hposition
    rw [hsize] at hposition
    rcases Nat.lt_succ_iff_lt_or_eq.mp hposition with hlt | rfl
    · obtain ⟨other, index, hplace, hnat⟩ := h.reached position hlt
      refine ⟨other, index, ?_, hnat⟩
      rw [position?_addBlock, if_neg, hplace]
      rintro rfl
      rw [hplace] at habsent
      contradiction
    · exact ⟨first, .ofNat table.blocks.size, by rw [position?_addBlock, if_pos rfl], hindex⟩
  · intro block hblock entry hentry
    rcases Array.mem_push.mp hblock with hblock | rfl
    · exact h.valid block hblock entry hentry
    · simp at hentry

theorem frames_addBlock (table : PageTable) (first : FirstIndex) :
    (table.addBlock first).frames = table.frames := by
  simp [frames, addBlock]

theorem withBlock_cases (table : PageTable) (first : FirstIndex) :
    table.withBlock first = table ∨
      table.position? first = none ∧ table.withBlock first = table.addBlock first := by
  cases hplace : table.position? first with
  | some index => exact .inl (if_pos (by simp [hplace]))
  | none => exact .inr ⟨rfl, if_neg (by simp [hplace])⟩

section WithBlock

variable {table : PageTable} (h : table.WellFormed) (first : FirstIndex)

include h

theorem wellFormed_withBlock : (table.withBlock first).WellFormed := by
  rw [withBlock]
  split
  · exact h
  · rename_i habsent
    exact wellFormed_addBlock h (by simpa using habsent)

theorem find?_withBlock (page : PageNumber) :
    (table.withBlock first).find? page = table.find? page := by
  rw [withBlock]
  split
  · rfl
  · rename_i habsent
    exact find?_addBlock h (by simpa using habsent) page

end WithBlock

theorem frames_withBlock (table : PageTable) (first : FirstIndex) :
    (table.withBlock first).frames = table.frames := by
  rw [withBlock]
  split
  · rfl
  · exact frames_addBlock table first

@[simp] theorem pool_withBlock (table : PageTable) (first : FirstIndex) :
    (table.withBlock first).pool = table.pool := by
  rw [withBlock]
  split <;> rfl

theorem isSome_position?_withBlock (table : PageTable) (first : FirstIndex) :
    ((table.withBlock first).position? first).isSome = true := by
  rw [withBlock]
  split
  · assumption
  · rw [position?_addBlock, if_pos rfl]
    rfl

def withEntry (table : PageTable) (page : PageNumber) (entry : PageEntry) : PageTable :=
  match table.position? page.firstIndex with
  | some index =>
      { table with blocks := table.blocks.modify index.toNat (·.put page.secondIndex entry) }
  | none => table

@[simp] theorem position?_withEntry (table : PageTable) (page : PageNumber) (entry : PageEntry)
    (first : FirstIndex) :
    (table.withEntry page entry).position? first = table.position? first := by
  rw [withEntry]
  split <;> rfl

theorem blocks_withEntry {table : PageTable} {page : PageNumber} {index : UInt16}
    (hplace : table.position? page.firstIndex = some index) (entry : PageEntry) :
    (table.withEntry page entry).blocks =
      table.blocks.modify index.toNat (·.put page.secondIndex entry) := by
  rw [withEntry, hplace]

section WithEntry

variable {table : PageTable} (h : table.WellFormed) {page : PageNumber}
  (hpresent : (table.position? page.firstIndex).isSome = true) (entry : PageEntry)

include h hpresent

theorem insert_of_present : table.insert page entry = .ok (table.withEntry page entry) := by
  obtain ⟨index, hplace⟩ := Option.isSome_iff_exists.mp hpresent
  rw [insert, withEntry, hplace]
  exact if_pos (h.served _ index hplace)

theorem block?_withEntry (other : FirstIndex) :
    (table.withEntry page entry).block? other =
      if other = page.firstIndex then (table.block? other).map (·.put page.secondIndex entry)
      else table.block? other := by
  obtain ⟨index, hplace⟩ := Option.isSome_iff_exists.mp hpresent
  rw [block?, block?, position?_withEntry, blocks_withEntry hplace]
  by_cases heq : other = page.firstIndex
  · rw [if_pos heq, heq, hplace, Option.bind_some, Option.bind_some, Array.getElem?_modify,
      if_pos rfl]
  · rw [if_neg heq]
    cases hother : table.position? other with
    | none => rfl
    | some position =>
        have hne : index.toNat ≠ position.toNat := by
          intro hnat
          obtain rfl := UInt16.toNat_inj.mp hnat
          exact heq (h.unshared other page.firstIndex index hother hplace)
        rw [Option.bind_some, Option.bind_some, Array.getElem?_modify, if_neg hne]

theorem find?_withEntry (other : PageNumber) :
    (table.withEntry page entry).find? other =
      if other.place = page.place then some entry else table.find? other := by
  obtain ⟨index, hplace⟩ := Option.isSome_iff_exists.mp hpresent
  obtain ⟨block, -, hblock⟩ := h.exists_block hplace
  rw [find?, block?_withEntry h hpresent]
  by_cases hfirst : other.firstIndex = page.firstIndex
  · rw [if_pos hfirst, find?, hfirst, hblock, Option.map_some, Option.bind_some, Block.getElem_put,
      Option.bind_some]
    simp only [PageNumber.place, Prod.mk.injEq, hfirst, true_and]
  · have hplaces : other.place ≠ page.place := fun heq => hfirst (congrArg Prod.fst heq)
    rw [if_neg hfirst, if_neg hplaces, find?]

theorem wellFormed_withEntry (hvalid : entry.isValid = true) :
    (table.withEntry page entry).WellFormed := by
  obtain ⟨index, hplace⟩ := Option.isSome_iff_exists.mp hpresent
  have hsize : (table.withEntry page entry).blocks.size = table.blocks.size := by
    rw [blocks_withEntry hplace]
    exact Array.size_modify
  constructor
  · simpa only [position?_withEntry, hsize] using h.served
  · simpa only [position?_withEntry] using h.unshared
  · simpa only [position?_withEntry, hsize] using h.reached
  · intro block hblock old hold
    rw [blocks_withEntry hplace] at hblock
    obtain ⟨position, hposition, rfl⟩ := Array.mem_iff_getElem.mp hblock
    rw [Array.getElem_modify] at hold
    split at hold
    · obtain ⟨second, hsecond⟩ := Block.mem_entries_iff.mp hold
      rw [Block.getElem_put] at hsecond
      split at hsecond
      · exact Option.some.inj hsecond ▸ hvalid
      · exact h.valid _ (Array.getElem_mem _) old (Block.mem_entries_iff.mpr ⟨second, hsecond⟩)
    · exact h.valid _ (Array.getElem_mem _) old hold

end WithEntry

@[simp] theorem pool_dropFirst (table : PageTable) : table.dropFirst.pool = table.pool := by
  rw [dropFirst]
  split <;> rfl

@[simp] theorem position?_dropFirst (table : PageTable) (first : FirstIndex) :
    table.dropFirst.position? first = table.position? first := by
  rw [dropFirst]
  split <;> rfl

theorem frames_dropFirst (table : PageTable) : table.dropFirst.frames = table.frames.tail := by
  have hskipped : ∀ block : Block, block.any Option.isSome = false →
      block.entries.map PageEntry.frame = [] := by
    intro block hblock
    rw [List.map_eq_nil_iff]
    by_contra hsome
    rw [Block.any_isSome_iff.mpr hsome] at hblock
    cases hblock
  rw [dropFirst, frames, frames]
  cases hfound : table.blocks.toList.findIdx? fun block => block.any Option.isSome with
  | none =>
      have hnone := flatMap_of_findIdx?_eq_none hskipped hfound
      simp only [hnone, List.tail_nil]
  | some position =>
      simp only [Array.toList_modify]
      refine flatMap_modify_first hskipped (fun block hblock => ?_) hfound
      rw [Block.entries_dropFirst, List.map_tail]
      exact ⟨mt List.map_eq_nil_iff.mp (Block.any_isSome_iff.mp hblock), rfl⟩

theorem wellFormed_dropFirst {table : PageTable} (h : table.WellFormed) :
    table.dropFirst.WellFormed := by
  have hsize : table.dropFirst.blocks.size = table.blocks.size := by
    rw [dropFirst]
    split
    · exact Array.size_modify
    · rfl
  constructor
  · simpa only [position?_dropFirst, hsize] using h.served
  · simpa only [position?_dropFirst] using h.unshared
  · simpa only [position?_dropFirst, hsize] using h.reached
  · intro block hblock entry hentry
    rw [dropFirst] at hblock
    split at hblock
    · obtain ⟨position, hposition, rfl⟩ := Array.mem_iff_getElem.mp hblock
      rw [Array.getElem_modify] at hentry
      split at hentry
      · rw [Block.entries_dropFirst] at hentry
        exact h.valid _ (Array.getElem_mem _) entry (List.mem_of_mem_tail hentry)
      · exact h.valid _ (Array.getElem_mem _) entry hentry
    · exact h.valid block hblock entry hentry

private theorem flatMap_modify_perm {α β : Type} {f : α → α} {g : α → List β} {added : β}
    {items : List α} {i : Nat} {item : α} (hitem : items[i]? = some item)
    (hadded : (g (f item)).Perm (added :: g item)) :
    ((items.modify i f).flatMap g).Perm (added :: items.flatMap g) := by
  induction items generalizing i with
  | nil => simp at hitem
  | cons head rest ih =>
      rcases i with - | i
      · obtain rfl : head = item := by simpa using hitem
        exact hadded.append_right _
      · have hrest := ih (i := i) (by simpa using hitem)
        exact (hrest.append_left (g head)).trans List.perm_middle

theorem frames_withEntry_perm {table : PageTable} (h : table.WellFormed) {page : PageNumber}
    (hpresent : (table.position? page.firstIndex).isSome = true)
    (hunmapped : table.find? page = none) (entry : PageEntry) :
    (table.withEntry page entry).frames.Perm (entry.frame :: table.frames) := by
  obtain ⟨index, hplace⟩ := Option.isSome_iff_exists.mp hpresent
  obtain ⟨block, hposition, hblock⟩ := h.exists_block hplace
  have hempty : block[page.secondIndex] = none := by
    rwa [find?, hblock, Option.bind_some] at hunmapped
  rw [frames, blocks_withEntry hplace, Array.toList_modify]
  have hitem : table.blocks.toList[index.toNat]? = some block := by simpa using hposition
  exact flatMap_modify_perm hitem ((Block.entries_put_perm hempty entry).map PageEntry.frame)

@[simp] theorem pool_withEntry (table : PageTable) (page : PageNumber) (entry : PageEntry) :
    (table.withEntry page entry).pool = table.pool := by
  rw [withEntry]
  split <;> rfl

end PageTable

end DemandPaging
