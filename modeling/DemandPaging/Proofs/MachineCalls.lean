import DemandPaging.AddressSpace

namespace DemandPaging

def Event.isMachineCall : Event → Bool
  | masked .. | restoring .. | inserting .. | invalidating .. => true
  | allocated .. | releasing .. | zeroing .. | logged .. => false

/-- The calls that were made on machines, in their order. -/
def machineCalls (events : List Event) : List Event :=
  events.filter Event.isMachineCall

@[simp] theorem machineCalls_append (events others : List Event) :
    machineCalls (events ++ others) = machineCalls events ++ machineCalls others :=
  List.filter_append ..

namespace Action

variable {σ τ α β : Type}

/-- An operation that makes no call on a machine, however it ends. -/
def Aloof (x : Action σ α) : Prop :=
  ∀ s, machineCalls (x s).events = []

theorem aloof_pure (a : α) : Aloof (pure a : Action σ α) :=
  fun _ => rfl

theorem aloof_stop (reason : Stop) : Aloof (stop reason : Action σ α) :=
  fun _ => rfl

theorem aloof_lift (result : Except Violation α) : Aloof (liftM result : Action σ α) :=
  fun _ => rfl

theorem aloof_current : Aloof (current : Action σ σ) :=
  fun _ => rfl

theorem aloof_update (f : σ → σ) : Aloof (update f) :=
  fun _ => rfl

theorem aloof_log (record : Record) : Aloof (log record : Action σ Unit) :=
  fun _ => rfl

theorem aloof_deny (report : FaultReport) : Aloof (report.deny : Action σ α) :=
  fun _ => rfl

theorem aloof_attempt (f : σ → Except Violation σ) : Aloof (attempt f) := by
  intro s
  rw [run_attempt]
  cases f s <;> rfl

theorem Aloof.bind {x : Action σ α} {f : α → Action σ β} (hx : Aloof x) (hf : ∀ a, Aloof (f a)) :
    Aloof (x >>= f) := by
  intro s
  have hevents := hx s
  rw [run_bind]
  rcases hrun : x s with ⟨reason | a, t, events⟩
  · rwa [hrun] at hevents
  · rw [hrun] at hevents
    rw [Outcome.events_after, machineCalls_append, hf a t, List.append_nil, hevents]

theorem Aloof.on {part : σ → τ} {put : τ → σ → σ} {x : Action τ α} (hx : Aloof x) :
    Aloof (on part put x) :=
  fun s => hx (part s)

theorem aloof_ite {check : Prop} [Decidable check] {x rest : Action σ α}
    (hx : Aloof rest → Aloof x) (hrest : Aloof rest) : Aloof (if check then x else rest) := by
  split
  · exact hx hrest
  · exact hrest

end Action

theorem FramePool.aloof_allocateFrame (id : PoolId) : Action.Aloof (allocateFrame id) :=
  fun _ => rfl

theorem FramePool.aloof_zeroFrame (id : PoolId) (frame : PhysicalAddress) :
    Action.Aloof (zeroFrame id frame) := by
  have hemit : Action.Aloof (Action.emit (.zeroing id frame) : Action FramePool Unit) :=
    fun _ => rfl
  exact hemit.bind fun _ => (Action.aloof_attempt _).on

theorem PageTable.aloof_createEntry (page : PageNumber) (dirty : Bool) :
    Action.Aloof (createEntry page dirty) := by
  rw [createEntry]
  refine (Action.aloof_update _).on.bind fun _ => Action.aloof_current.bind fun t => ?_
  refine Action.aloof_ite (fun hrest => (Action.aloof_stop _).bind fun _ => hrest) ?_
  refine (FramePool.aloof_allocateFrame _).on.bind fun frame => ?_
  cases frame with
  | none => exact Action.aloof_stop _
  | some frame =>
      refine (FramePool.aloof_zeroFrame _ frame).on.bind fun _ =>
        (Action.aloof_lift _).bind fun entry => ?_
      exact (Action.aloof_attempt _).on.bind fun _ =>
        (Action.aloof_log _).bind fun _ => Action.aloof_pure entry

theorem AddressSpace.aloof_resolve (access : Access) (page : PageNumber) :
    Action.Aloof (resolve access page) := by
  rw [resolve]
  refine Action.aloof_current.bind fun t => ?_
  refine Action.aloof_ite (fun hrest => (Action.aloof_lift _).bind fun _ =>
    (Action.aloof_deny _).bind fun _ => hrest) ?_
  cases Region.deciding? t.1.regions page with
  | none => exact (Action.aloof_lift _).bind fun _ => Action.aloof_deny _
  | some region =>
      refine Action.aloof_ite (fun hrest => (Action.aloof_lift _).bind fun _ =>
        (Action.aloof_deny _).bind fun _ => hrest) ?_
      have hmapping : ∀ entry : PageEntry, Action.Aloof (do
          let start ← page.start
          let entry ← entry.withDirty (entry.isDirty && region.permissions.writable)
          Mapping.new start entry : Action (AddressSpace × FramePool) Mapping) := fun entry =>
        (Action.aloof_lift _).bind fun _ => (Action.aloof_lift _).bind fun _ => Action.aloof_lift _
      cases t.1.table.find? page with
      | some entry => exact (Action.aloof_pure entry).bind hmapping
      | none => exact (PageTable.aloof_createEntry page _).on.bind hmapping

end DemandPaging
