import Mathlib.Data.Finset.Dedup
import Mathlib.Data.Fintype.Card
import DemandPaging.Proofs.PageTable.Flat

namespace DemandPaging

namespace PageTable

/-- The places whose blocks were made, after an operation. A page that cannot be created has its
block made all the same. -/
def Operation.madeAfter (made : Finset FirstIndex) :
    Operation → Except Stop Reply → Finset FirstIndex
  | .ensureBlock first, .ok _ => made ∪ Finset.univ.filter fun place => place.val = first.toNat
  | .createEntry page _, _ => Insert.insert page.firstIndex made
  | .destroy, .ok _ => ∅
  | _, _ => made

def mappedPlaces (table : PageTable) : Finset FirstIndex :=
  (table.mappedPages.map fun item => item.1.firstIndex).toFinset

/-- The places that are present are those whose blocks were made. -/
structure Tracks (table : PageTable) (made : Finset FirstIndex) : Prop where
  wellFormed : table.WellFormed
  present_iff : ∀ first, (table.position? first).isSome = true ↔ first ∈ made

section States

variable {table : PageTable} (h : table.WellFormed) (page : PageNumber) (pool : FramePool)

include h

theorem createEntry_state (dirty : Bool) :
    (createEntry page dirty (table, pool)).state.1 = table.withBlock page.firstIndex ∨
      ∃ entry, entry.isValid = true ∧
        (createEntry page dirty (table, pool)).state.1 = table.mapping page entry := by
  cases hmapped : table.contains page with
  | true =>
      left
      rw [createEntry_of_mapped dirty hmapped, withBlock_of_contains hmapped]
  | false =>
      rcases hallocate : pool.allocate with ⟨- | frame, next⟩
      · exact .inl (by rw [createEntry_of_none h dirty hmapped (congrArg Prod.fst hallocate)])
      · rcases hzero : FramePool.zeroFrame table.pool frame next with ⟨reason | _, filled, events⟩
        · left
          simp [createEntry, contains_withBlock h, hmapped, FramePool.allocateFrame_eq, hallocate,
            hzero, Outcome.after]
        · cases hnew : PageEntry.new frame ((EntryFlags.empty.withValid true).withDirty dirty) with
          | error reason =>
              left
              simp [createEntry, contains_withBlock h, hmapped, FramePool.allocateFrame_eq,
                hallocate, hzero, hnew, Except.mapError, Outcome.after]
          | ok entry =>
              right
              refine ⟨entry, ?_, ?_⟩
              · rw [PageEntry.eq_pack_of_new hnew]
                exact PageEntry.isValid_fresh frame dirty
              · simp [createEntry, contains_withBlock h, hmapped, FramePool.allocateFrame_eq,
                  hallocate, hzero, hnew, insert_withBlock h, Except.mapError, Outcome.after]

theorem copyEntry_state (entry : PageEntry)
    (hok : (copyEntry page entry (table, pool)).result = .ok ()) :
    ∃ copied, copied.isValid = true ∧
      (copyEntry page entry (table, pool)).state.1 = table.mapping page copied := by
  rcases hallocate : pool.allocate with ⟨- | frame, next⟩
  · simp [copyEntry, FramePool.allocateFrame_eq, hallocate, Outcome.after] at hok
  · rcases hcopy : FramePool.copyFrame entry.frame frame next with ⟨reason | _, filled, events⟩
    · simp [copyEntry, FramePool.allocateFrame_eq, hallocate, hcopy, Outcome.after] at hok
    · cases hnew : PageEntry.new frame (entry.flags.withValid true) with
      | error reason =>
          simp [copyEntry, FramePool.allocateFrame_eq, hallocate, hcopy, hnew, Except.mapError,
            Outcome.after] at hok
      | ok copied =>
          refine ⟨copied, ?_, ?_⟩
          · rw [PageEntry.eq_pack_of_new hnew]
            exact PageEntry.isValid_moved entry frame
          · simp [copyEntry, FramePool.allocateFrame_eq, hallocate, hcopy, hnew,
              insert_withBlock h, Except.mapError, Outcome.after]

end States

theorem isSome_position?_withBlock_iff (table : PageTable) (place first : FirstIndex) :
    ((table.withBlock place).position? first).isSome = true ↔
      first = place ∨ (table.position? first).isSome = true := by
  constructor
  · intro hpresent
    rcases table.withBlock_cases place with hsame | ⟨-, hadded⟩
    · rw [hsame] at hpresent
      exact .inr hpresent
    · rw [hadded, position?_addBlock] at hpresent
      split at hpresent
      · rename_i heq
        exact .inl heq
      · exact .inr hpresent
  · rintro (rfl | hpresent)
    · exact isSome_position?_withBlock table first
    · rcases table.withBlock_cases place with hsame | ⟨-, hadded⟩
      · rwa [hsame]
      · rw [hadded, position?_addBlock]
        split
        · rfl
        · exact hpresent

namespace Tracks

variable {table : PageTable} {made : Finset FirstIndex}

theorem empty (id : PoolId) : (PageTable.empty id).Tracks ∅ :=
  ⟨wellFormed_empty id, by simp⟩

variable (h : table.Tracks made)

include h

theorem withBlock (place : FirstIndex) :
    (table.withBlock place).Tracks (Insert.insert place made) where
  wellFormed := wellFormed_withBlock h.wellFormed place
  present_iff first := by
    rw [isSome_position?_withBlock_iff, h.present_iff, Finset.mem_insert]

theorem mapping (page : PageNumber) {entry : PageEntry} (hvalid : entry.isValid = true) :
    (table.mapping page entry).Tracks (Insert.insert page.firstIndex made) where
  wellFormed := wellFormed_mapping h.wellFormed page entry hvalid
  present_iff first := by
    rw [PageTable.mapping, position?_withEntry]
    exact (h.withBlock page.firstIndex).present_iff first

theorem dropFirst : table.dropFirst.Tracks made where
  wellFormed := wellFormed_dropFirst h.wellFormed
  present_iff first := by
    rw [position?_dropFirst]
    exact h.present_iff first

omit h in
theorem iterate_dropFirst (count : Nat) (h : table.Tracks made) :
    (PageTable.dropFirst^[count] table).Tracks made := by
  induction count generalizing table with
  | zero => exact h
  | succ count ih => exact ih h.dropFirst

theorem ensureBlock (first : UInt64) (pool : FramePool) :
    ((Operation.ensureBlock first).perform (table, pool)).state.1.Tracks
      ((Operation.ensureBlock first).madeAfter made
        ((Operation.ensureBlock first).perform (table, pool)).result) := by
  have hrun := Action.run_first (PageTable.ensureBlock first) table pool
  rw [Operation.perform]
  rcases ensureBlock_cases first table with ⟨place, hplace, habsent, hensure⟩ | ⟨-, hensure⟩ |
    ⟨-, hensure⟩
  · have hmade : (made ∪ Finset.univ.filter fun other => other.val = first.toNat) =
        Insert.insert place made := by
      ext other
      simp [← hplace, Fin.ext_iff, or_comm]
    have hwith : table.withBlock place = table.addBlock place := if_neg (by simp [habsent])
    rw [hensure, ← hwith] at hrun
    rw [Action.bind_of_ok hrun]
    have htracks := h.withBlock place
    rw [← hmade] at htracks
    exact htracks
  · rw [hensure] at hrun
    rw [Action.bind_of_error hrun]
    exact h
  · rw [hensure] at hrun
    rw [Action.bind_of_error hrun]
    exact h

theorem createEntry (page : PageNumber) (dirty : Bool) (pool : FramePool) :
    (PageTable.createEntry page dirty (table, pool)).state.1.Tracks
      (Insert.insert page.firstIndex made) := by
  rcases createEntry_state h.wellFormed page pool dirty with hstate | ⟨entry, hvalid, hstate⟩
  · rw [hstate]
    exact h.withBlock page.firstIndex
  · rw [hstate]
    exact h.mapping page hvalid

theorem destroy (pool : FramePool) :
    (Operation.destroy.perform (table, pool)).state.1.Tracks
      (Operation.destroy.madeAfter made (Operation.destroy.perform (table, pool)).result) := by
  rw [Operation.perform]
  rcases hrelease : FramePool.releaseFrames table.pool table.frames pool with
    ⟨reason | _, next, events⟩
  · rw [Action.bind_of_error (destroy_of_refused hrelease)]
    exact iterate_dropFirst events.length h
  · rw [Action.bind_of_ok (destroy_of_released hrelease)]
    exact Tracks.empty table.pool

theorem step (pool : FramePool) (operation : Operation) :
    (operation.perform (table, pool)).state.1.Tracks
      (operation.madeAfter made (operation.perform (table, pool)).result) := by
  cases operation with
  | ensureBlock first => exact h.ensureBlock first pool
  | createEntry page dirty =>
      rw [Operation.perform, Action.state_bind_pure]
      exact h.createEntry page dirty pool
  | destroy => exact h.destroy pool
  | entry page => exact h
  | contains page => exact h

theorem copyEntries {items : List (PageNumber × PageEntry)} {pool : FramePool}
    (hok : (PageTable.copyEntries items (table, pool)).result = .ok ()) :
    (PageTable.copyEntries items (table, pool)).state.1.Tracks
      (made ∪ (items.map fun item => item.1.firstIndex).toFinset) := by
  induction items generalizing table made pool with
  | nil =>
      rw [List.map_nil, List.toFinset_nil, Finset.union_empty]
      exact h
  | cons item items ih =>
      obtain ⟨page, entry⟩ := item
      rcases hrun : copyEntry page entry (table, pool) with ⟨reason | _, ⟨next, after⟩, events⟩
      · rw [PageTable.copyEntries, Action.bind_of_error hrun] at hok
        cases hok
      · have hcopied : (copyEntry page entry (table, pool)).result = .ok () := by rw [hrun]
        obtain ⟨copied, hvalid, hstate⟩ := copyEntry_state h.wellFormed page pool entry hcopied
        rw [hrun] at hstate
        obtain rfl : next = table.mapping page copied := hstate
        rw [PageTable.copyEntries, Action.bind_of_ok hrun] at hok ⊢
        have hrest := ih (h.mapping page hvalid) hok
        rw [List.map_cons, List.toFinset_cons, ← Finset.insert_union_comm]
        exact hrest

omit h in
theorem copy {target : PageTable} {pool : FramePool}
    (hcopy : (table.copy pool).result = .ok target) : target.Tracks table.mappedPlaces := by
  rcases hrun : PageTable.copyEntries table.mappedPages (PageTable.empty table.pool, pool) with
    ⟨reason | _, ⟨filled, next⟩, events⟩
  · rw [PageTable.copy, Action.build, hrun] at hcopy
    cases hcopy
  · rw [PageTable.copy, Action.build, hrun] at hcopy
    obtain rfl : filled = target := Except.ok.inj hcopy
    have htracks := (Tracks.empty table.pool).copyEntries (congrArg Outcome.result hrun)
    rw [hrun, Finset.empty_union] at htracks
    exact htracks

end Tracks

namespace Tracks

variable {table : PageTable} {made : Finset FirstIndex} (h : table.Tracks made)

include h

theorem size_eq : table.blocks.size = made.card := by
  obtain ⟨place, hinj, hpresent⟩ := h.wellFormed.exists_places
  have himage : Finset.univ.image place = made := by
    ext first
    rw [← h.present_iff, hpresent]
    simp
  rw [← himage, Finset.card_image_of_injective _ hinj, Finset.card_univ, Fintype.card_fin]

theorem size_le : table.blocks.size ≤ Layout.firstLevelEntries := by
  rw [h.size_eq]
  simpa using made.card_le_univ

end Tracks

end PageTable

end DemandPaging
