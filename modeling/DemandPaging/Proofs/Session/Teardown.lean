import DemandPaging.Proofs.Session.Mirrors
import DemandPaging.Proofs.Session.Reachable
import DemandPaging.Proofs.Teardown

namespace DemandPaging

theorem PageTable.mappedPages_empty (id : PoolId) : (empty id).mappedPages = [] := by
  rw [List.eq_nil_iff_forall_not_mem]
  intro item hitem
  have hentry := (mem_mappedPages_iff.mp hitem).2
  rw [find?_empty] at hentry
  cases hentry

namespace Session

variable {n : Nat} {s : Session n} {slot : SlotId} {table : PageTable} {pool : FramePool}
  {owned : List PhysicalAddress}

theorem onTable_of_some {α : Type} {t : PageTable × FramePool} (h : table? slot s = some t)
    (x : Action (PageTable × FramePool) α) :
    onTable slot x s = ⟨(x t).result, putTable slot (x t).state s, (x t).events⟩ :=
  Action.onSome_of_some h _ _

theorem putTable_self {t : PageTable × FramePool} (h : table? slot s = some t) :
    putTable slot t s = s := by
  obtain ⟨htable, hpool⟩ := table?_eq_some_iff.mp h
  rw [putTable, putPool_self hpool, Slots.put_self htable]

theorem table?_putTable {t next : PageTable × FramePool} (h : table? slot s = some t)
    (hpool : next.1.pool = t.1.pool) : table? slot (putTable slot next s) = some next := by
  obtain ⟨-, hthere⟩ := table?_eq_some_iff.mp h
  obtain ⟨hsize, -⟩ := Array.getElem?_eq_some_iff.mp hthere
  refine table?_eq_some_iff.mpr ⟨(s.tables.get?_put slot slot _).trans (if_pos rfl), ?_⟩
  exact Array.getElem?_setIfInBounds_self_of_lt (hpool ▸ hsize)

/-- What a session is after the table of a slot was destroyed, and what was observed. -/
structure TearsDown (s : Session n) (slot : SlotId) (table : PageTable) (after : Session n)
    (events : List Event) : Prop where
  gives : ∃ pool next, s.pools[table.pool]? = some pool ∧ after.pools[table.pool]? = some next ∧
    table.GivesUp pool next events
  tables : ∀ other, other ≠ slot → after.tables.get? other = s.tables.get? other
  pools : ∀ id, id ≠ table.pool → after.pools[id]? = s.pools[id]?
  spaces : after.spaces = s.spaces
  machines : after.machines = s.machines
  unmapped : (answer (.table slot .mapped) after).result = .ok (.mapped 0 [])
  entries : ∀ page, (answer (.table slot (.entry page)) after).result = .ok (.entry none)
  accepts : ∀ first : UInt64, first.toNat < Layout.firstLevelEntries →
    (answer (.table slot (.ensure first)) after).result = .ok .done
  again : answer (.table slot .destroy) after = ⟨.ok .nothing, after, []⟩
  dropped : answer (.table slot .drop) after =
    ⟨.ok .nothing, { after with tables := after.tables.erase slot }, []⟩
  droppedAtOnce : answer (.table slot .drop) s =
    ⟨.ok .nothing, { after with tables := after.tables.erase slot }, events⟩
  /-- From then on requests for the table are answered like those for a new one. -/
  asNew : ∀ other, s.tables.get? other = none → ∀ requests : List TableRequest,
    (∀ request ∈ requests, request.IsOwn) →
      (run (answer (.table other (.new table.pool)) after).state
        (requests.map (.table other))).1 =
      (run after (requests.map (.table slot))).1

section Empty

variable {id : PoolId} (h : table? slot s = some (.empty id, pool))

include h

theorem onTable_destroy_empty : onTable slot PageTable.destroy s = ⟨.ok (), s, []⟩ := by
  rw [onTable_of_some h, PageTable.destroy_empty, putTable_self h]

theorem answer_destroy_empty : answer (.table slot .destroy) s = ⟨.ok .nothing, s, []⟩ := by
  rw [answer, answerTable, Action.bind_of_ok (onTable_destroy_empty h)]
  rfl

theorem answer_drop_empty :
    answer (.table slot .drop) s =
      ⟨.ok .nothing, { s with tables := s.tables.erase slot }, []⟩ := by
  rw [answer, answerTable, Action.bind_of_ok (onTable_destroy_empty h)]
  rfl

theorem answer_mapped_empty : (answer (.table slot .mapped) s).result = .ok (.mapped 0 []) := by
  rw [answer, answerTable, named_bind, (table?_eq_some_iff.mp h).1]
  change Except.ok (Answer.mapped _ _) = _
  rw [PageTable.mappedPages_empty]
  rfl

theorem answer_entry_empty (page : PageNumber) :
    (answer (.table slot (.entry page)) s).result = .ok (.entry none) := by
  rw [answer, answerTable, named_bind, (table?_eq_some_iff.mp h).1]
  change Except.ok (Answer.entry _) = _
  rw [PageTable.find?_empty]

theorem answer_ensure_empty {first : UInt64} (hfirst : first.toNat < Layout.firstLevelEntries) :
    (answer (.table slot (.ensure first)) s).result = .ok .done := by
  have hensure : (onTable slot (Action.first (PageTable.ensureBlock first)) s).result = .ok () := by
    rw [onTable_of_some h]
    exact PageTable.ensureBlock_empty id hfirst
  rw [answer, answerTable, Action.result_bind, hensure]
  rfl

theorem mirrors_new {other : SlotId} (hfree : s.tables.get? other = none) :
    Mirrors slot other s (answer (.table other (.new id)) s).state := by
  obtain ⟨htable, hthere⟩ := table?_eq_some_iff.mp h
  have hpool : s.pools[id]? = some pool := hthere
  have hplace : placeTable other (.empty id) s =
      ⟨.ok (), { s with tables := s.tables.put other (.empty id) }, []⟩ := by
    simp [placeTable, hfree, Outcome.after]
  rw [answer, answerTable, named_bind, hpool]
  simp only [Action.bind_of_ok hplace]
  exact ⟨((s.tables.get?_put other other _).trans (if_pos rfl)).trans htable.symm, rfl, rfl⟩

end Empty

section Table

variable (htable : table? slot s = some (table, pool))
  (hbacked : PageTable.Backed owned (table, pool))

include htable hbacked

theorem onTable_destroy :
    onTable slot PageTable.destroy s =
      ⟨.ok (), putTable slot (.empty table.pool, pool.takeBackAll table.frames) s,
        table.farewell⟩ := by
  rw [onTable_of_some htable, PageTable.destroy_eq hbacked.handedOut]

theorem answer_destroy :
    answer (.table slot .destroy) s =
      ⟨.ok .nothing, putTable slot (.empty table.pool, pool.takeBackAll table.frames) s,
        table.farewell⟩ := by
  rw [answer, answerTable, Action.bind_of_ok (onTable_destroy htable hbacked)]
  simp [Outcome.after]

theorem answer_drop :
    answer (.table slot .drop) s =
      ⟨.ok .nothing,
        { putTable slot (.empty table.pool, pool.takeBackAll table.frames) s with
          tables := s.tables.erase slot },
        table.farewell⟩ := by
  rw [answer, answerTable, Action.bind_of_ok (onTable_destroy htable hbacked)]
  simp [Outcome.after, putTable]

theorem tearsDown_of_backed :
    TearsDown s slot table
      (putTable slot (.empty table.pool, pool.takeBackAll table.frames) s) table.farewell := by
  have hempty := table?_putTable htable
    (rfl : (PageTable.empty table.pool, pool.takeBackAll table.frames).1.pool = table.pool)
  obtain ⟨hslot, hpool⟩ := table?_eq_some_iff.mp htable
  constructor
  case gives =>
    exact ⟨pool, _, hpool, (table?_eq_some_iff.mp hempty).2, hbacked.givesUp⟩
  case tables => exact fun other hne => (s.tables.get?_put slot other _).trans (if_neg hne)
  case pools => exact fun id hne => Array.getElem?_setIfInBounds_ne (Ne.symm hne)
  case spaces => rfl
  case machines => rfl
  case unmapped => exact answer_mapped_empty hempty
  case entries => exact answer_entry_empty hempty
  case accepts => exact fun first => answer_ensure_empty hempty
  case again => exact answer_destroy_empty hempty
  case dropped => exact answer_drop_empty hempty
  case droppedAtOnce =>
    rw [answer_drop htable hbacked, putTable, Slots.erase_put]
  case asNew =>
    intro other hfree requests hown
    have hne : other ≠ slot := by
      rintro rfl
      rw [hslot] at hfree
      cases hfree
    have hstays := (s.tables.get?_put slot other (PageTable.empty table.pool)).trans (if_neg hne)
    exact run_of_mirrors (mirrors_new hempty (hstays.trans hfree)) hown

end Table

section Space

variable {space : AddressSpace} (hspace : space? slot s = some (space, pool))

include hspace

theorem eraseSpace_of_ok {x : Action (AddressSpace × FramePool) Unit} {next : FramePool}
    {events : List Event}
    (hx : x (space, pool) =
      ⟨.ok (), ({ space with table := .empty space.table.pool }, next), events⟩) :
    (do
      onSpace slot x
      Action.update fun s : Session n => { s with spaces := s.spaces.erase slot }
      return Answer.nothing : Action (Session n) Answer) s =
      ⟨.ok .nothing,
        { putPool space.table.pool next s with spaces := s.spaces.erase slot }, events⟩ := by
  have hrun := onSpace_of_some hspace x
  rw [hx] at hrun
  rw [Action.bind_of_ok hrun]
  simp [Outcome.after, putSpace, PageTable.empty]

variable (hbacked : PageTable.Backed owned (space.table, pool))

include hbacked

theorem answer_dropSpace :
    answer (.space slot .drop) s =
      ⟨.ok .nothing,
        { putPool space.table.pool (pool.takeBackAll space.table.frames) s with
          spaces := s.spaces.erase slot },
        space.table.farewell⟩ :=
  eraseSpace_of_ok hspace (AddressSpace.discard_eq hbacked)

theorem answer_destroySpace :
    answer (.space slot .destroy) s =
      ⟨.ok .nothing,
        { putPool space.table.pool (pool.takeBackAll space.table.frames) s with
          spaces := s.spaces.erase slot },
        .logged (.destroying space.table.mappedCount) :: space.table.farewell⟩ :=
  eraseSpace_of_ok hspace (AddressSpace.destroy_eq hbacked)

end Space

/-- In every reachable session a table that is destroyed gives back each of its frames once, and
nothing else happens. What is left cannot be told from a new table, and to destroy it again does
nothing. A space gives up its table in the same way, whether it is destroyed or dropped. -/
theorem tearsDown_of_reachable {held : Holdings} (h : Reachable s held) :
    (∀ slot table, s.tables.get? slot = some table →
      ∃ after events, answer (.table slot .destroy) s = ⟨.ok .nothing, after, events⟩ ∧
        TearsDown s slot table after events) ∧
      ∀ slot space, s.spaces.get? slot = some space →
        ∃ pool next after events, s.pools[space.table.pool]? = some pool ∧
          answer (.space slot .drop) s = ⟨.ok .nothing, after, events⟩ ∧
          answer (.space slot .destroy) s =
            ⟨.ok .nothing, after, .logged (.destroying space.table.mappedCount) :: events⟩ ∧
          after = { putPool space.table.pool next s with spaces := s.spaces.erase slot } ∧
          space.table.GivesUp pool next events := by
  constructor
  · intro slot table htable
    obtain ⟨pool, hfound⟩ := h.balances.exists_table? htable
    obtain ⟨owned, hbacked⟩ := h.balances.exists_backed_table hfound
    exact ⟨_, _, answer_destroy hfound hbacked, tearsDown_of_backed hfound hbacked⟩
  · intro slot space hspace
    obtain ⟨pool, hfound⟩ := h.balances.exists_space? hspace
    obtain ⟨owned, hbacked⟩ := h.balances.exists_backed hfound
    have hpool : s.pools[space.table.pool]? = some pool := (space?_eq_some_iff.mp hfound).2
    exact ⟨pool, _, _, _, hpool, answer_dropSpace hfound hbacked,
      answer_destroySpace hfound hbacked, rfl, hbacked.givesUp⟩

/-- Two tables with frames of one pool. The first one has a block without entries as well. -/
def twoTables : Session 0 :=
  (run (ofLimits #[4] #[])
    [.table 0 (.new 0), .table 0 (.ensure 7), .table 0 (.create ⟨3⟩ true),
      .table 0 (.create ⟨5⟩ false), .table 1 (.new 0), .table 1 (.create ⟨3⟩ true)]).2

theorem reachable_twoTables : Reachable twoTables [] :=
  (reachable_ofLimits #[4] #[]).run
    (⟨trivial, trivial, trivial, trivial, trivial, trivial, trivial⟩ :
      HonestRun (ofLimits #[4] #[]) []
        [.table 0 (.new 0), .table 0 (.ensure 7), .table 0 (.create ⟨3⟩ true),
          .table 0 (.create ⟨5⟩ false), .table 1 (.new 0), .table 1 (.create ⟨3⟩ true)])

theorem tearsDown_of_twoTables :
    Reachable twoTables [] ∧ ∃ table after events, twoTables.tables.get? 0 = some table ∧
      table.mappedCount = 2 ∧ table.blocks.size = 2 ∧
      answer (.table 0 .destroy) twoTables = ⟨.ok .nothing, after, events⟩ ∧
      TearsDown twoTables 0 table after events := by
  have hmapped : (twoTables.tables.get? 0).map (fun table =>
      (table.mappedCount, table.blocks.size)) = some (2, 2) := by
    decide +kernel
  obtain ⟨table, htable, hcounts⟩ := Option.map_eq_some_iff.mp hmapped
  obtain ⟨hcount, hblocks⟩ := Prod.mk.inj hcounts
  obtain ⟨after, events, hanswer, htears⟩ :=
    (tearsDown_of_reachable reachable_twoTables).1 0 table htable
  exact ⟨reachable_twoTables, table, after, events, htable, hcount, hblocks, hanswer, htears⟩

end Session

end DemandPaging
