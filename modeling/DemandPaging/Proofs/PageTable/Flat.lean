import DemandPaging.Proofs.Conservation

/-!
A page table is a partial map from the low twenty bits of page numbers to entries. Whichever
operations were done on a table, all that is seen of it is told by such a map: blocks, their order
and the places in the directory do not show.
-/

namespace DemandPaging

/-- What a table sees of the number of a page. -/
def PageNumber.key (page : PageNumber) : Fin Layout.pageCount :=
  ⟨page.number.toNat % Layout.pageCount, Nat.mod_lt _ (by decide)⟩

theorem PageNumber.key_eq_iff {page other : PageNumber} :
    page.key = other.key ↔ page.place = other.place := by
  simp only [key, place, Fin.ext_iff, Prod.mk.injEq, val_firstIndex, val_secondIndex,
    Layout.pageCount]
  omega

theorem PageNumber.exists_key_eq (key : Fin Layout.pageCount) :
    ∃ page : PageNumber, page.key = key := by
  have hkey : key.val < 1048576 := key.isLt
  refine ⟨⟨.ofNat key.val⟩, Fin.ext ?_⟩
  simp only [PageNumber.key, UInt64.toNat_ofNat', Layout.pageCount]
  omega

abbrev FlatMap := Fin Layout.pageCount → Option PageEntry

namespace FlatMap

def empty : FlatMap :=
  fun _ => none

def set (flat : FlatMap) (key : Fin Layout.pageCount) (entry : PageEntry) : FlatMap :=
  fun other => if other = key then some entry else flat other

end FlatMap

namespace PageTable

inductive Operation
  | ensureBlock (first : UInt64)
  | createEntry (page : PageNumber) (dirty : Bool)
  | destroy
  | entry (page : PageNumber)
  | contains (page : PageNumber)

inductive Reply
  | done
  | created (entry : PageEntry)
  | entry (entry : Option PageEntry)
  | contained (isContained : Bool)
  deriving DecidableEq

def Operation.perform : Operation → Action (PageTable × FramePool) Reply
  | .ensureBlock first => do
      Action.first (PageTable.ensureBlock first)
      return .done
  | .createEntry page dirty => do return .created (← PageTable.createEntry page dirty)
  | .destroy => do
      PageTable.destroy
      return .done
  | .entry page => do return .entry ((← Action.current).1.find? page)
  | .contains page => do return .contained ((← Action.current).1.contains page)

end PageTable

/-- The map after an operation on a table, told by what was replied: a page that was created is
there, and a table that was destroyed has none. -/
def FlatMap.after (flat : FlatMap) :
    PageTable.Operation → Except Stop PageTable.Reply → FlatMap
  | .createEntry page _, .ok (.created entry) => flat.set page.key entry
  | .destroy, .ok _ => empty
  | _, _ => flat

namespace PageTable

/-- The tables that operations can lead to, each with the map that was noted on the way. Meanwhile
others use the pool: they take and give back frames that are not the ones of the table, and store
bytes anywhere. -/
inductive Noted : PageTable × FramePool → FlatMap → Prop
  | new {pool : FramePool} {owned : List PhysicalAddress} (id : PoolId)
      (hpool : pool.HandedOut owned) : Noted (empty id, pool) FlatMap.empty
  | step {t : PageTable × FramePool} {flat : FlatMap} (h : Noted t flat) (operation : Operation) :
      Noted (operation.perform t).state (flat.after operation (operation.perform t).result)
  | elsewhere {table : PageTable} {pool next : FramePool} {flat : FlatMap}
      {owned : List PhysicalAddress} (h : Noted (table, pool) flat)
      (hnext : next.HandedOut (table.frames ++ owned)) : Noted (table, next) flat

def Represents (table : PageTable) (flat : FlatMap) : Prop :=
  ∀ page : PageNumber, table.find? page = flat page.key

variable {table : PageTable} {pool : FramePool} {flat : FlatMap} {owned : List PhysicalAddress}

theorem represents_empty (id : PoolId) : (empty id).Represents FlatMap.empty :=
  find?_empty id

theorem Represents.withBlock (h : table.Represents flat) (hwell : table.WellFormed)
    (first : FirstIndex) : (table.withBlock first).Represents flat :=
  fun page => (find?_withBlock hwell first page).trans (h page)

theorem Represents.mapping (h : table.Represents flat) (hwell : table.WellFormed)
    (page : PageNumber) (entry : PageEntry) :
    (table.mapping page entry).Represents (flat.set page.key entry) := by
  intro other
  rw [find?_mapping hwell, FlatMap.set, h other]
  simp only [PageNumber.key_eq_iff]

theorem Represents.contains_eq (h : table.Represents flat) (page : PageNumber) :
    table.contains page = (flat page.key).isSome := by
  rw [contains, h page]

theorem Represents.ensureBlock (h : table.Represents flat) (hwell : table.WellFormed)
    (first : UInt64) : (PageTable.ensureBlock first table).state.Represents flat := by
  rcases ensureBlock_state first table with hstate | ⟨place, hstate⟩
  · rw [hstate]
    exact h
  · rw [hstate]
    exact h.withBlock hwell place

theorem Represents.mem_frames_iff (h : table.Represents flat) (hwell : table.WellFormed)
    (frame : PhysicalAddress) :
    frame ∈ table.frames ↔ ∃ key entry, flat key = some entry ∧ entry.frame = frame := by
  constructor
  · intro hframe
    obtain ⟨⟨page, entry⟩, hitem, rfl⟩ := List.mem_map.mp ((frames_perm hwell).mem_iff.mpr hframe)
    exact ⟨page.key, entry, (h page).symm.trans (mem_mappedPages_iff.mp hitem).2, rfl⟩
  · rintro ⟨key, entry, hentry, rfl⟩
    obtain ⟨page, rfl⟩ := PageNumber.exists_key_eq key
    exact frame_mem_frames ((h page).trans hentry)

section CreateEntry

variable (h : table.Represents flat) (hbacked : Backed owned (table, pool)) {page : PageNumber}
  (dirty : Bool)

include h

theorem Represents.createEntry_of_isSome (hmapped : (flat page.key).isSome = true) :
    PageTable.createEntry page dirty (table, pool) =
      ⟨.error (.refused .alreadyExists), (table, pool), []⟩ :=
  createEntry_of_mapped dirty ((h.contains_eq page).trans hmapped)

include hbacked

theorem Represents.createEntry_of_none (hunmapped : flat page.key = none)
    (hnone : pool.allocate.1 = none) :
    PageTable.createEntry page dirty (table, pool) =
      ⟨.error (.refused .outOfMemory), (table.withBlock page.firstIndex, pool),
        [.allocated table.pool none]⟩ :=
  PageTable.createEntry_of_none hbacked.wellFormed dirty
    (contains_eq_false_iff.mpr ((h page).trans hunmapped)) hnone

theorem Represents.createEntry_of_some (hunmapped : flat page.key = none)
    {frame : PhysicalAddress} (hframe : pool.allocate.1 = some frame) :
    PageTable.createEntry page dirty (table, pool) =
      ⟨.ok (.fresh frame dirty),
        (table.mapping page (.fresh frame dirty), pool.allocate.2.withContents frame Page.zero),
        [.allocated table.pool (some frame), .zeroing table.pool frame,
          .logged (.mapped page frame)]⟩ :=
  PageTable.createEntry_of_some hbacked.wellFormed dirty hbacked.handedOut
    (contains_eq_false_iff.mpr ((h page).trans hunmapped)) (Prod.ext hframe rfl)

end CreateEntry

theorem run_ensureBlock (first : UInt64) (table : PageTable) (pool : FramePool) :
    (Operation.perform (.ensureBlock first) (table, pool)).state =
      ((PageTable.ensureBlock first table).state, pool) := by
  rw [Operation.perform, Action.state_bind_pure (f := fun _ => Reply.done)]
  rfl

theorem Represents.perform (h : table.Represents flat) (hbacked : Backed owned (table, pool))
    (operation : Operation) :
    (operation.perform (table, pool)).state.1.Represents
      (flat.after operation (operation.perform (table, pool)).result) := by
  cases operation with
  | ensureBlock first =>
      rw [run_ensureBlock]
      exact h.ensureBlock hbacked.wellFormed first
  | createEntry page dirty =>
      rw [Operation.perform]
      cases hmapped : flat page.key with
      | some entry =>
          rw [Action.bind_of_error (h.createEntry_of_isSome dirty (by simp [hmapped]))]
          exact h
      | none =>
          cases hframe : pool.allocate.1 with
          | none =>
              rw [Action.bind_of_error (h.createEntry_of_none hbacked dirty hmapped hframe)]
              exact h.withBlock hbacked.wellFormed page.firstIndex
          | some frame =>
              rw [Action.bind_of_ok (h.createEntry_of_some hbacked dirty hmapped hframe)]
              exact h.mapping hbacked.wellFormed page (.fresh frame dirty)
  | destroy =>
      obtain ⟨events, hdestroy⟩ := destroy_of_handedOut hbacked.handedOut
      rw [Operation.perform, Action.bind_of_ok hdestroy]
      exact represents_empty table.pool
  | entry page => exact h
  | contains page => exact h

theorem backed_perform {t : PageTable × FramePool} (hbacked : Backed owned t)
    (operation : Operation) : Backed owned (operation.perform t).state := by
  rcases t with ⟨table, pool⟩
  cases operation with
  | ensureBlock first =>
      rw [run_ensureBlock]
      exact (conserves_ensureBlock first (table, pool) owned hbacked).2.1
  | createEntry page dirty =>
      rw [Operation.perform, Action.state_bind_pure]
      exact (conserves_createEntry page dirty (table, pool) owned hbacked).2.1
  | destroy =>
      rw [Operation.perform, Action.state_bind_pure (f := fun _ => Reply.done)]
      exact (conserves_destroy (table, pool) owned hbacked).2.1
  | entry page => exact hbacked
  | contains page => exact hbacked

/-- Over any run of operations, with others at work on the pool, a table represents the map noted
for it and its frames stay with it. -/
theorem Noted.represents {t : PageTable × FramePool} (h : Noted t flat) :
    t.1.Represents flat ∧ ∃ owned, Backed owned t := by
  induction h with
  | new id hpool => exact ⟨represents_empty id, _, backed_empty id hpool⟩
  | step _ operation ih =>
      obtain ⟨hflat, owned, hbacked⟩ := ih
      exact ⟨hflat.perform hbacked operation, owned, backed_perform hbacked operation⟩
  | elsewhere _ hnext ih =>
      obtain ⟨hflat, owned, hbacked⟩ := ih
      exact ⟨hflat, _, hbacked.wellFormed, hnext⟩

theorem Represents.state_of_failed (h : table.Represents flat)
    (hbacked : Backed owned (table, pool)) {operation : Operation} {reason : Stop}
    (hfailed : (operation.perform (table, pool)).result = .error reason) :
    (operation.perform (table, pool)).state = (table, pool) ∨
      ∃ first, table.position? first = none ∧
        (operation.perform (table, pool)).state = (table.addBlock first, pool) := by
  cases operation with
  | ensureBlock first =>
      left
      rw [run_ensureBlock]
      rcases ensureBlock_cases first table with ⟨place, -, -, hensure⟩ | ⟨-, hensure⟩ |
        ⟨-, hensure⟩
      · rw [Operation.perform, Action.result_bind, Action.run_first, hensure] at hfailed
        cases hfailed
      · rw [hensure]
      · rw [hensure]
  | createEntry page dirty =>
      rw [Operation.perform] at hfailed ⊢
      cases hmapped : flat page.key with
      | some entry =>
          left
          rw [Action.bind_of_error (h.createEntry_of_isSome dirty (by simp [hmapped]))]
      | none =>
          cases hframe : pool.allocate.1 with
          | none =>
              rw [Action.bind_of_error (h.createEntry_of_none hbacked dirty hmapped hframe)]
              exact (table.withBlock_cases page.firstIndex).imp (congrArg (·, pool))
                fun ⟨habsent, hadded⟩ => ⟨_, habsent, congrArg (·, pool) hadded⟩
          | some frame =>
              rw [Action.bind_of_ok (h.createEntry_of_some hbacked dirty hmapped hframe)] at hfailed
              cases hfailed
  | destroy =>
      obtain ⟨events, hdestroy⟩ := destroy_of_handedOut hbacked.handedOut
      rw [Operation.perform, Action.bind_of_ok hdestroy] at hfailed
      cases hfailed
  | entry page => cases hfailed
  | contains page => cases hfailed

/-- What is seen of a table with its pool is told by a map. -/
structure ActsAs (t : PageTable × FramePool) (flat : FlatMap) : Prop where
  find? : ∀ page, t.1.find? page = flat page.key
  contains : ∀ page, t.1.contains page = (flat page.key).isSome
  alreadyExists_iff : ∀ page dirty,
    (PageTable.createEntry page dirty t).result = .error (.refused .alreadyExists) ↔
      (flat page.key).isSome = true
  outOfMemory_iff : ∀ page dirty,
    (PageTable.createEntry page dirty t).result = .error (.refused .outOfMemory) ↔
      flat page.key = none ∧ t.2.allocate.1 = none
  created : ∀ page dirty frame, flat page.key = none → t.2.allocate.1 = some frame →
    ∃ entry, (PageTable.createEntry page dirty t).result = .ok entry ∧ entry.isValid = true ∧
      entry.isDirty = dirty ∧ entry.frame = frame ∧
      (PageTable.createEntry page dirty t).state.1.Represents (flat.set page.key entry) ∧
      (PageTable.createEntry page dirty t).state.2 =
        t.2.allocate.2.withContents frame Page.zero
  ensured : ∀ first : UInt64, first.toNat < Layout.firstLevelEntries →
    (PageTable.ensureBlock first t.1).result = .ok () ∨
      (PageTable.ensureBlock first t.1).result = .error (.refused .alreadyExists)
  spared : ∀ first, (PageTable.ensureBlock first t.1).state.Represents flat
  destroyed : (PageTable.destroy t).result = .ok () ∧
    (PageTable.destroy t).state.1.Represents FlatMap.empty ∧
    ∃ frames, frames.Nodup ∧
      (∀ frame, frame ∈ frames ↔ ∃ key entry, flat key = some entry ∧ entry.frame = frame) ∧
      (PageTable.destroy t).state.2 = t.2.takeBackAll frames
  failed : ∀ (operation : Operation) reason, (operation.perform t).result = .error reason →
    (operation.perform t).state.1.Represents flat ∧ (operation.perform t).state.2 = t.2 ∧
      ((operation.perform t).state.1 = t.1 ∨ ∃ first, t.1.position? first = none ∧
        (operation.perform t).state.1 = t.1.addBlock first)

theorem Represents.alreadyExists_iff (h : table.Represents flat)
    (hbacked : Backed owned (table, pool)) (page : PageNumber) (dirty : Bool) :
    (PageTable.createEntry page dirty (table, pool)).result =
        .error (.refused .alreadyExists) ↔ (flat page.key).isSome = true := by
  cases hmapped : flat page.key with
  | some entry =>
      rw [h.createEntry_of_isSome dirty (by simp [hmapped])]
      exact iff_of_true rfl rfl
  | none =>
      refine iff_of_false ?_ (by simp)
      cases hframe : pool.allocate.1 with
      | none =>
          rw [h.createEntry_of_none hbacked dirty hmapped hframe]
          nofun
      | some frame =>
          rw [h.createEntry_of_some hbacked dirty hmapped hframe]
          nofun

theorem Represents.outOfMemory_iff (h : table.Represents flat)
    (hbacked : Backed owned (table, pool)) (page : PageNumber) (dirty : Bool) :
    (PageTable.createEntry page dirty (table, pool)).result = .error (.refused .outOfMemory) ↔
      flat page.key = none ∧ pool.allocate.1 = none := by
  cases hmapped : flat page.key with
  | some entry =>
      rw [h.createEntry_of_isSome dirty (by simp [hmapped])]
      exact iff_of_false nofun nofun
  | none =>
      cases hframe : pool.allocate.1 with
      | none =>
          rw [h.createEntry_of_none hbacked dirty hmapped hframe]
          exact iff_of_true rfl ⟨rfl, rfl⟩
      | some frame =>
          rw [h.createEntry_of_some hbacked dirty hmapped hframe]
          exact iff_of_false nofun nofun

/-- Over any run of operations on one table that was new, also while others use the pool, a table
acts as the map noted for it. -/
theorem actsAs_of_noted {t : PageTable × FramePool} (h : Noted t flat) : ActsAs t flat := by
  rcases t with ⟨table, pool⟩
  obtain ⟨hflat, owned, hbacked⟩ := h.represents
  constructor
  case find? => exact hflat
  case contains => exact hflat.contains_eq
  case alreadyExists_iff => exact hflat.alreadyExists_iff hbacked
  case outOfMemory_iff => exact hflat.outOfMemory_iff hbacked
  case created =>
    intro page dirty frame hunmapped hframe
    have hnext := (hbacked.handedOut.allocate_of_some (Prod.ext hframe rfl)).1
    have haligned := hnext.isPageAligned (List.mem_append_right _ List.mem_cons_self)
    rw [hflat.createEntry_of_some hbacked dirty hunmapped hframe]
    exact ⟨.fresh frame dirty, rfl, PageEntry.isValid_fresh frame dirty,
      PageEntry.isDirty_fresh frame dirty, PageEntry.frame_fresh haligned dirty,
      hflat.mapping hbacked.wellFormed page (.fresh frame dirty), rfl⟩
  case ensured =>
    intro first hfirst
    rcases ensureBlock_cases first table with ⟨place, -, -, hensure⟩ | ⟨-, hensure⟩ |
      ⟨hrange, -⟩
    · exact .inl (congrArg Outcome.result hensure)
    · exact .inr (congrArg Outcome.result hensure)
    · exact absurd hfirst hrange
  case spared => exact hflat.ensureBlock hbacked.wellFormed
  case destroyed =>
    obtain ⟨events, hdestroy⟩ := destroy_of_handedOut hbacked.handedOut
    rw [hdestroy]
    exact ⟨rfl, represents_empty table.pool, table.frames,
      hbacked.handedOut.nodup.of_append_left, hflat.mem_frames_iff hbacked.wellFormed, rfl⟩
  case failed =>
    intro operation reason hfailed
    rcases hflat.state_of_failed hbacked hfailed with hstate | ⟨first, habsent, hstate⟩
    · rw [hstate]
      exact ⟨hflat, rfl, .inl rfl⟩
    · rw [hstate]
      refine ⟨?_, rfl, .inr ⟨first, habsent, rfl⟩⟩
      exact fun page => (find?_addBlock hbacked.wellFormed habsent page).trans (hflat page)

def singleFrame : FramePool :=
  ⟨⟨#[Page.zero]⟩, [], 0, #[false], 0, 0⟩

/-- A table that has taken the only frame for a page whose number is above those of user pages. -/
def frameTaken : PageTable × FramePool :=
  (Operation.perform (.createEntry ⟨0x100005⟩ true) (empty 0, singleFrame)).state

theorem noted_frameTaken :
    Noted frameTaken (FlatMap.empty.set (PageNumber.key ⟨5⟩) (.fresh ⟨0⟩ true)) := by
  have hnew : FramePool.new 1 = .ok singleFrame := by rfl
  have hresult : (Operation.perform (.createEntry ⟨0x100005⟩ true) (empty 0, singleFrame)).result =
      .ok (.created (.fresh ⟨0⟩ true)) := by decide +kernel
  have hnoted := Noted.step (.new 0 (FramePool.handedOut_new hnew).1)
    (.createEntry ⟨0x100005⟩ true)
  rw [hresult] at hnoted
  exact hnoted

theorem actsAs_of_frameTaken :
    Noted frameTaken (FlatMap.empty.set (PageNumber.key ⟨5⟩) (.fresh ⟨0⟩ true)) ∧
      ActsAs frameTaken (FlatMap.empty.set (PageNumber.key ⟨5⟩) (.fresh ⟨0⟩ true)) ∧
      (PageTable.createEntry ⟨5⟩ false frameTaken).result = .error (.refused .alreadyExists) ∧
      (PageTable.createEntry ⟨6⟩ false frameTaken).result = .error (.refused .outOfMemory) :=
  ⟨noted_frameTaken, actsAs_of_noted noted_frameTaken,
    ((actsAs_of_noted noted_frameTaken).alreadyExists_iff ⟨5⟩ false).mpr (by decide +kernel),
    ((actsAs_of_noted noted_frameTaken).outOfMemory_iff ⟨6⟩ false).mpr (by decide +kernel)⟩

end PageTable

end DemandPaging
