import DemandPaging.Proofs.FramePool
import DemandPaging.Proofs.PageTable.Enumeration

namespace DemandPaging

namespace PageTable

variable {table : PageTable} {pool : FramePool} {owned : List PhysicalAddress} {page : PageNumber}

theorem contains_eq_false_iff : table.contains page = false ↔ table.find? page = none := by
  rw [contains, Option.isSome_eq_false_iff, Option.isNone_iff_eq_none]

theorem withBlock_of_contains (hmapped : table.contains page = true) :
    table.withBlock page.firstIndex = table := by
  rw [withBlock, if_pos]
  cases hplace : table.position? page.firstIndex with
  | none => simp [contains, find?, block?, hplace] at hmapped
  | some index => rfl

theorem contains_withBlock (h : table.WellFormed) (page : PageNumber) (first : FirstIndex) :
    (table.withBlock first).contains page = table.contains page := by
  rw [contains, find?_withBlock h, contains]

def mapping (table : PageTable) (page : PageNumber) (entry : PageEntry) : PageTable :=
  (table.withBlock page.firstIndex).withEntry page entry

section Mapping

variable (h : table.WellFormed) (page : PageNumber) (entry : PageEntry)

include h

theorem insert_withBlock :
    (table.withBlock page.firstIndex).insert page entry = .ok (table.mapping page entry) :=
  insert_of_present (wellFormed_withBlock h _) (isSome_position?_withBlock table _) entry

theorem find?_mapping (other : PageNumber) :
    (table.mapping page entry).find? other =
      if other.place = page.place then some entry else table.find? other := by
  rw [mapping, find?_withEntry (wellFormed_withBlock h _) (isSome_position?_withBlock table _),
    find?_withBlock h]

theorem wellFormed_mapping (hvalid : entry.isValid = true) :
    (table.mapping page entry).WellFormed :=
  wellFormed_withEntry (wellFormed_withBlock h _) (isSome_position?_withBlock table _) entry hvalid

theorem frames_mapping_perm {page : PageNumber} (hunmapped : table.find? page = none) :
    (table.mapping page entry).frames.Perm (entry.frame :: table.frames) := by
  have hperm := frames_withEntry_perm (wellFormed_withBlock h page.firstIndex)
    (isSome_position?_withBlock table _) ((find?_withBlock h _ page).trans hunmapped) entry
  rwa [frames_withBlock] at hperm

end Mapping

@[simp] theorem pool_mapping (table : PageTable) (page : PageNumber) (entry : PageEntry) :
    (table.mapping page entry).pool = table.pool := by
  rw [mapping, pool_withEntry, pool_withBlock]

theorem createEntry_of_mapped (dirty : Bool) (hmapped : table.contains page = true) :
    createEntry page dirty (table, pool) =
      ⟨.error (.refused .alreadyExists), (table, pool), []⟩ := by
  simp [createEntry, withBlock_of_contains hmapped, hmapped, Outcome.after]

section CreateEntry

variable (h : table.WellFormed) (dirty : Bool)

include h

theorem createEntry_of_none (hunmapped : table.contains page = false)
    (hnone : pool.allocate.1 = none) :
    createEntry page dirty (table, pool) =
      ⟨.error (.refused .outOfMemory), (table.withBlock page.firstIndex, pool),
        [.allocated table.pool none]⟩ := by
  simp [createEntry, contains_withBlock h, hunmapped, FramePool.allocateFrame_eq,
    FramePool.allocate_of_none hnone, Outcome.after]

theorem createEntry_of_full (howned : pool.HandedOut owned)
    (hunmapped : table.contains page = false) (hfull : owned.length = pool.limit) :
    createEntry page dirty (table, pool) =
      ⟨.error (.refused .outOfMemory), (table.withBlock page.firstIndex, pool),
        [.allocated table.pool none]⟩ :=
  createEntry_of_none h dirty hunmapped (congrArg Prod.fst (howned.allocate_of_full hfull))

theorem createEntry_of_some (howned : pool.HandedOut owned)
    (hunmapped : table.contains page = false) {frame : PhysicalAddress} {next : FramePool}
    (hallocate : pool.allocate = (some frame, next)) :
    createEntry page dirty (table, pool) =
      ⟨.ok (.fresh frame dirty),
        (table.mapping page (.fresh frame dirty), next.withContents frame Page.zero),
        [.allocated table.pool (some frame), .zeroing table.pool frame,
          .logged (.mapped page frame)]⟩ := by
  have hnext := (howned.allocate_of_some hallocate).1
  have hentry : PageEntry.new frame ((EntryFlags.empty.withValid true).withDirty dirty) =
      .ok (.fresh frame dirty) := PageEntry.new_of_isPageAligned hnext.isPageAligned_first _
  simp [createEntry, contains_withBlock h, hunmapped, FramePool.allocateFrame_eq, hallocate,
    FramePool.zeroFrame_of_holds _ hnext.holds_first, hentry, insert_withBlock h,
    Outcome.after]

theorem createEntry_of_room (howned : pool.HandedOut owned)
    (hunmapped : table.contains page = false) (hroom : owned.length < pool.limit) :
    ∃ frame next events, createEntry page dirty (table, pool) =
        ⟨.ok (.fresh frame dirty),
          (table.mapping page (.fresh frame dirty), next.withContents frame Page.zero), events⟩ ∧
      next.HandedOut (frame :: owned) ∧ pool.Allocates next := by
  obtain ⟨frame, next, hallocate, hnext⟩ := howned.allocate_of_room hroom
  exact ⟨frame, next, _, createEntry_of_some h dirty howned hunmapped hallocate, hnext⟩

end CreateEntry

theorem ensureBlock_cases (first : UInt64) (table : PageTable) :
    (∃ place : FirstIndex, place.val = first.toNat ∧ table.position? place = none ∧
        ensureBlock first table = ⟨.ok (), table.addBlock place, []⟩) ∨
      (first.toNat < Layout.firstLevelEntries ∧
        ensureBlock first table = ⟨.error (.refused .alreadyExists), table, []⟩) ∨
      (¬ first.toNat < Layout.firstLevelEntries ∧
        ensureBlock first table = ⟨.error (.violated .firstIndexOutOfRange), table, []⟩) := by
  rw [ensureBlock]
  by_cases hfirst : first.toNat < Layout.firstLevelEntries
  · rw [dif_pos hfirst]
    cases hplace : table.position? ⟨first.toNat, hfirst⟩ with
    | none =>
        refine .inl ⟨⟨first.toNat, hfirst⟩, rfl, hplace, ?_⟩
        simp [hplace, Outcome.after]
    | some index =>
        refine .inr (.inl ⟨hfirst, ?_⟩)
        simp [hplace, Outcome.after]
  · rw [dif_neg hfirst]
    exact .inr (.inr ⟨hfirst, rfl⟩)

theorem ensureBlock_state (first : UInt64) (table : PageTable) :
    (ensureBlock first table).state = table ∨
      ∃ place : FirstIndex, (ensureBlock first table).state = table.withBlock place := by
  rcases ensureBlock_cases first table with ⟨place, -, habsent, hensure⟩ | ⟨-, hensure⟩ |
    ⟨-, hensure⟩
  · rw [hensure]
    exact .inr ⟨place, (if_neg (by simp [habsent])).symm⟩
  · exact .inl (congrArg Outcome.state hensure)
  · exact .inl (congrArg Outcome.state hensure)

def farewell (table : PageTable) : List Event :=
  table.frames.map (.releasing table.pool) ++
    if table.frames.isEmpty then [] else [.logged (.released table.frames.length)]

/-- Frames of entries are given back as other frames are. With each of them, also with one that the
pool refuses, the table has lost an entry. -/
theorem releaseEntries_eq (id : PoolId) (frames : List PhysicalAddress) (table : PageTable)
    (pool : FramePool) :
    releaseEntries id frames (table, pool) =
      ⟨(FramePool.releaseFrames id frames pool).result,
        (dropFirst^[(FramePool.releaseFrames id frames pool).events.length] table,
          (FramePool.releaseFrames id frames pool).state),
        (FramePool.releaseFrames id frames pool).events⟩ := by
  induction frames generalizing table pool with
  | nil => rfl
  | cons frame frames ih =>
      have hdrop : (Action.first (Action.update dropFirst) :
          Action (PageTable × FramePool) Unit) (table, pool) =
            ⟨.ok (), (table.dropFirst, pool), []⟩ := rfl
      rw [releaseEntries, Action.bind_of_ok hdrop, Outcome.after_nil, FramePool.releaseFrames]
      rcases FramePool.releaseFrame_cases id frame pool with ⟨next, hrelease⟩ | ⟨reason, hrelease⟩
      · have hboth : (Action.second (FramePool.releaseFrame id frame) :
            Action (PageTable × FramePool) Unit) (table.dropFirst, pool) =
              ⟨.ok (), (table.dropFirst, next), [.releasing id frame]⟩ := by
          rw [Action.run_second, hrelease]
        rw [Action.bind_of_ok hboth, Action.bind_of_ok hrelease, ih]
        rfl
      · have hboth : (Action.second (FramePool.releaseFrame id frame) :
            Action (PageTable × FramePool) Unit) (table.dropFirst, pool) =
              ⟨.error reason, (table.dropFirst, pool), [.releasing id frame]⟩ := by
          rw [Action.run_second, hrelease]
        rw [Action.bind_of_error hboth, Action.bind_of_error hrelease]
        rfl

section Destroy

variable {next : FramePool} {events : List Event}

theorem destroy_of_released
    (h : FramePool.releaseFrames table.pool table.frames pool = ⟨.ok (), next, events⟩) :
    destroy (table, pool) =
      ⟨.ok (), (empty table.pool, next),
        events ++
          if table.frames.isEmpty then [] else [.logged (.released table.frames.length)]⟩ := by
  have hrelease := releaseEntries_eq table.pool table.frames table pool
  rw [h] at hrelease
  cases hframes : table.frames with
  | nil =>
      rw [hframes] at hrelease
      simp [destroy, hframes, hrelease, Outcome.after]
  | cons frame frames =>
      rw [hframes] at hrelease
      simp [destroy, hframes, hrelease, Outcome.after]

theorem destroy_of_refused {reason : Stop}
    (h : FramePool.releaseFrames table.pool table.frames pool = ⟨.error reason, next, events⟩) :
    destroy (table, pool) = ⟨.error reason, (dropFirst^[events.length] table, next), events⟩ := by
  have hrelease := releaseEntries_eq table.pool table.frames table pool
  rw [h] at hrelease
  simp [destroy, hrelease, Outcome.after]

end Destroy

theorem destroy_eq {rest : List PhysicalAddress} (h : pool.HandedOut (table.frames ++ rest)) :
    destroy (table, pool) =
      ⟨.ok (), (empty table.pool, pool.takeBackAll table.frames), table.farewell⟩ :=
  destroy_of_released (FramePool.releaseFrames_of_handedOut table.pool h)

theorem destroy_of_handedOut {rest : List PhysicalAddress}
    (h : pool.HandedOut (table.frames ++ rest)) :
    ∃ events, destroy (table, pool) =
      ⟨.ok (), (empty table.pool, pool.takeBackAll table.frames), events⟩ :=
  ⟨table.farewell, destroy_eq h⟩

end PageTable

end DemandPaging
