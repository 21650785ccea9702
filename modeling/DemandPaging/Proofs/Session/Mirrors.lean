import DemandPaging.Proofs.Session.Steps

namespace DemandPaging

/-- Requests about the table of a slot alone. No table is made for the slot, or for another one. -/
def TableRequest.IsOwn : TableRequest → Prop
  | .new _ | .copy _ => False
  | _ => True

namespace Session

variable {n : Nat} {slot other : SlotId} {α β : Type}

/-- One session has the table in one slot that the other session has in the other slot. -/
structure Mirrors (slot other : SlotId) (s t : Session n) : Prop where
  table : t.tables.get? other = s.tables.get? slot
  pools : t.pools = s.pools
  machines : t.machines = s.machines

theorem Mirrors.poolCounts {s t : Session n} (h : Mirrors slot other s t) :
    t.poolCounts = s.poolCounts := by
  rw [Session.poolCounts, h.pools, Session.poolCounts]

theorem Mirrors.machineCounts {s t : Session n} (h : Mirrors slot other s t) :
    t.machineCounts = s.machineCounts := by
  rw [Session.machineCounts, h.machines, Session.machineCounts]

/-- Two operations that end alike in sessions that mirror each other. -/
def Mirrored (slot other : SlotId) (x y : Action (Session n) α) : Prop :=
  ∀ s t, Mirrors slot other s t → (y t).result = (x s).result ∧ (y t).events = (x s).events ∧
    Mirrors slot other (x s).state (y t).state

theorem mirrored_pure (a : α) :
    Mirrored slot other (pure a : Action (Session n) α) (pure a) :=
  fun _ _ h => ⟨rfl, rfl, h⟩

theorem mirrored_stop (reason : Stop) :
    Mirrored slot other (Action.stop reason : Action (Session n) α) (Action.stop reason) :=
  fun _ _ h => ⟨rfl, rfl, h⟩

theorem mirrored_lift (result : Except Violation α) :
    Mirrored slot other (liftM result : Action (Session n) α) (liftM result) :=
  fun _ _ h => ⟨rfl, rfl, h⟩

theorem Mirrored.bind {x y : Action (Session n) α} {f g : α → Action (Session n) β}
    (hxy : Mirrored slot other x y) (hfg : ∀ a, Mirrored slot other (f a) (g a)) :
    Mirrored slot other (x >>= f) (y >>= g) := by
  intro s t h
  have hends := hxy s t h
  rw [Action.run_bind, Action.run_bind]
  generalize x s = one, y t = another at hends
  obtain ⟨_, next, _⟩ := one
  obtain ⟨result, last, events⟩ := another
  obtain ⟨rfl, rfl, hstates⟩ := hends
  cases result with
  | error reason => exact ⟨rfl, rfl, hstates⟩
  | ok a =>
      obtain ⟨hresult, hevents, hstates⟩ := hfg a next last hstates
      exact ⟨hresult, congrArg (events ++ ·) hevents, hstates⟩

theorem mirrored_named_bind {value another : Session n → Option α}
    {f g : α → Action (Session n) β}
    (hvalue : ∀ s t, Mirrors slot other s t → another t = value s)
    (hfg : ∀ a, Mirrored slot other (f a) (g a)) :
    Mirrored slot other (named value >>= f) (named another >>= g) := by
  intro s t h
  rw [named_bind, named_bind, hvalue s t h]
  cases value s with
  | some a => exact hfg a s t h
  | none => exact ⟨rfl, rfl, h⟩

theorem mirrored_onPool (id : PoolId) (x : Action FramePool α) :
    Mirrored slot other (onPool id x : Action (Session n) α) (onPool id x) := by
  intro s t h
  cases hpool : s.pools[id]? with
  | none =>
      have hsame : t.pools[id]? = none := by rw [h.pools, hpool]
      rw [onPool_of_none hpool, onPool_of_none hsame]
      exact ⟨rfl, rfl, h⟩
  | some pool =>
      have hsame : t.pools[id]? = some pool := by rw [h.pools, hpool]
      rw [onPool_of_some hpool, onPool_of_some hsame]
      exact ⟨rfl, rfl, h.table, congrArg (·.setIfInBounds id (x pool).state) h.pools, h.machines⟩

theorem mirrored_onTable (x : Action (PageTable × FramePool) α) :
    Mirrored slot other (onTable slot x : Action (Session n) α) (onTable other x) := by
  intro s t h
  have hsame : table? other t = table? slot s := by
    rw [table?, table?, h.table, h.pools]
  rw [onTable, onTable]
  cases htable : table? slot s with
  | none =>
      rw [Action.onSome_of_none htable, Action.onSome_of_none (hsame.trans htable)]
      exact ⟨rfl, rfl, h⟩
  | some table =>
      rw [Action.onSome_of_some htable, Action.onSome_of_some (hsame.trans htable)]
      refine ⟨rfl, rfl, ?_, ?_, h.machines⟩
      · exact (t.tables.get?_put other other _).trans
          ((if_pos rfl).trans ((s.tables.get?_put slot slot _).trans (if_pos rfl)).symm)
      · exact congrArg (·.setIfInBounds (x table).state.1.pool (x table).state.2) h.pools

theorem mirrored_writeTo (pool : PoolId) (address : PhysicalAddress) (bytes : List UInt8) :
    Mirrored slot other (writeTo pool address bytes : Action (Session n) Answer)
      (writeTo pool address bytes) :=
  (mirrored_onPool pool _).bind fun _ => mirrored_pure _

theorem mirrored_readFrom (pool : PoolId) (address : PhysicalAddress) (count : Nat) :
    Mirrored slot other (readFrom pool address count : Action (Session n) Answer)
      (readFrom pool address count) :=
  mirrored_named_bind (fun _ _ h => by rw [h.pools]) fun _ =>
    (mirrored_lift _).bind fun _ => mirrored_pure _

theorem mirrored_locate (table : PageTable) (page : PageNumber) (offset : UInt64) :
    Mirrored slot other (locate table page offset : Action (Session n) PhysicalAddress)
      (locate table page offset) := by
  rw [locate]
  cases table.find? page with
  | none => exact mirrored_stop _
  | some entry => exact mirrored_lift _

theorem mirrored_answerTable {request : TableRequest} (hown : request.IsOwn) :
    Mirrored slot other (answerTable slot request : Action (Session n) Answer)
      (answerTable other request) := by
  have htable : ∀ s t : Session n, Mirrors slot other s t →
      t.tables.get? other = s.tables.get? slot := fun _ _ h => h.table
  cases request with
  | new pool => exact hown.elim
  | copy target => exact hown.elim
  | ensure first => exact (mirrored_onTable _).bind fun _ => mirrored_pure _
  | create page dirty => exact (mirrored_onTable _).bind fun _ => mirrored_pure _
  | entry page => exact mirrored_named_bind htable fun _ => mirrored_pure _
  | mapped => exact mirrored_named_bind htable fun _ => mirrored_pure _
  | destroy => exact (mirrored_onTable _).bind fun _ => mirrored_pure _
  | drop =>
      refine (mirrored_onTable _).bind fun _ => Mirrored.bind ?_ fun _ => mirrored_pure _
      intro s t h
      refine ⟨rfl, rfl, ?_, h.pools, h.machines⟩
      exact (t.tables.get?_erase other other).trans
        ((if_pos rfl).trans ((s.tables.get?_erase slot slot).trans (if_pos rfl)).symm)
  | poke page offset bytes =>
      exact mirrored_named_bind htable fun table =>
        (mirrored_locate table page offset).bind fun _ => mirrored_writeTo _ _ bytes
  | peek page offset count =>
      exact mirrored_named_bind htable fun table =>
        (mirrored_locate table page offset).bind fun _ => mirrored_readFrom _ _ count

/-- Requests of any number are answered alike, and everything that is reported of them is the
same. -/
theorem run_of_mirrors {s t : Session n} (h : Mirrors slot other s t)
    {requests : List TableRequest} (hown : ∀ request ∈ requests, request.IsOwn) :
    (run t (requests.map (.table other))).1 = (run s (requests.map (.table slot))).1 := by
  induction requests generalizing s t with
  | nil => rfl
  | cons request rest ih =>
      obtain ⟨hresult, hevents, hstates⟩ :=
        mirrored_answerTable (hown request List.mem_cons_self) s t h
      have hrest := ih hstates fun request hmem => hown request (List.mem_cons_of_mem _ hmem)
      refine congrArg₂ List.cons ?_ hrest
      change Report.mk (answerTable other request t).result (answerTable other request t).events
          (poolCounts (answerTable other request t).state)
          (machineCounts (answerTable other request t).state) =
        Report.mk (answerTable slot request s).result (answerTable slot request s).events
          (poolCounts (answerTable slot request s).state)
          (machineCounts (answerTable slot request s).state)
      rw [hresult, hevents, hstates.poolCounts, hstates.machineCounts]

end Session

end DemandPaging
