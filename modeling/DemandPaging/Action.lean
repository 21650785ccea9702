import DemandPaging.Event

/-!
Operations on a state that may stop. Whatever an operation did before it stopped stays done, and
what an observer saw of it is kept in order.
-/

namespace DemandPaging

/-- What is left when an operation has ended: its result or why it stopped, the state, and what was
seen. -/
structure Outcome (σ α : Type) where
  result : Except Stop α
  state : σ
  events : List Event

def Outcome.after {σ α : Type} (outcome : Outcome σ α) (events : List Event) : Outcome σ α :=
  { outcome with events := events ++ outcome.events }

namespace Outcome

variable {σ α : Type}

@[simp] theorem result_after (outcome : Outcome σ α) (events : List Event) :
    (outcome.after events).result = outcome.result := rfl

@[simp] theorem state_after (outcome : Outcome σ α) (events : List Event) :
    (outcome.after events).state = outcome.state := rfl

@[simp] theorem events_after (outcome : Outcome σ α) (events : List Event) :
    (outcome.after events).events = events ++ outcome.events := rfl

@[simp] theorem after_nil (outcome : Outcome σ α) : outcome.after [] = outcome := rfl

end Outcome

def Action (σ α : Type) : Type :=
  σ → Outcome σ α

namespace Action

variable {σ τ α β : Type}

protected def pure (a : α) : Action σ α := fun s =>
  ⟨.ok a, s, []⟩

protected def bind (x : Action σ α) (f : α → Action σ β) : Action σ β := fun s =>
  match x s with
  | ⟨.ok a, t, events⟩ => (f a t).after events
  | ⟨.error stop, t, events⟩ => ⟨.error stop, t, events⟩

instance : Monad (Action σ) where
  pure := Action.pure
  bind := Action.bind

def stop (reason : Stop) : Action σ α := fun s =>
  ⟨.error reason, s, []⟩

def refuse (reason : Refusal) : Action σ α :=
  stop (.refused reason)

def violate (assertion : Violation) : Action σ α :=
  stop (.violated assertion)

def ofExcept (result : Except Stop α) : Action σ α := fun s =>
  ⟨result, s, []⟩

instance : MonadLift (Except Stop) (Action σ) where
  monadLift := ofExcept

instance : MonadLift (Except Violation) (Action σ) where
  monadLift x := ofExcept (x.mapError .violated)

def current : Action σ σ := fun s =>
  ⟨.ok s, s, []⟩

def update (f : σ → σ) : Action σ Unit := fun s =>
  ⟨.ok (), f s, []⟩

/-- A change of the state, unless it is a violation. -/
def attempt (f : σ → Except Violation σ) : Action σ Unit := fun s =>
  match f s with
  | .ok t => ⟨.ok (), t, []⟩
  | .error assertion => ⟨.error (.violated assertion), s, []⟩

def emit (event : Event) : Action σ Unit := fun s =>
  ⟨.ok (), s, [event]⟩

def log (record : Record) : Action σ Unit :=
  emit (.logged record)

def on (part : σ → τ) (put : τ → σ → σ) (x : Action τ α) : Action σ α := fun s =>
  let outcome := x (part s)
  ⟨outcome.result, put outcome.state s, outcome.events⟩

def first (x : Action σ α) : Action (σ × τ) α :=
  on Prod.fst (fun s p => (s, p.2)) x

def second (x : Action τ α) : Action (σ × τ) α :=
  on Prod.snd (fun t p => (p.1, t)) x

def onSome (part : σ → Option τ) (put : τ → σ → σ) (x : Action τ α) : Action σ α := fun s =>
  match part s with
  | some t =>
      let outcome := x t
      ⟨outcome.result, put outcome.state s, outcome.events⟩
  | none => ⟨.error .absent, s, []⟩

/-- An operation on the state and a value that is given up afterwards. -/
def consuming (value : τ) (x : Action (τ × σ) α) : Action σ α := fun s =>
  let outcome := x (value, s)
  ⟨outcome.result, outcome.state.2, outcome.events⟩

def ifPresent (found : Action (σ × τ) α) (missing : Action τ α) : Action (Option σ × τ) α
  | (some s, t) =>
      let outcome := found (s, t)
      ⟨outcome.result, (some outcome.state.1, outcome.state.2), outcome.events⟩
  | (none, t) =>
      let outcome := missing t
      ⟨outcome.result, (none, outcome.state), outcome.events⟩

/-- Ends with a second operation, however the first one ends. The result is that of the first. -/
def ensuring (x : Action σ α) (ending : Action σ Unit) : Action σ α := fun s =>
  let outcome := x s
  let ended := ending outcome.state
  ⟨outcome.result, ended.state, outcome.events ++ ended.events⟩

/-- Fills a value of its own beside the state. If that stops, the unfinished value is taken down. -/
def build (value : τ) (fill : Action (τ × σ) Unit) (takeDown : Action (τ × σ) Unit) :
    Action σ τ := fun s =>
  match fill (value, s) with
  | ⟨.ok (), t, events⟩ => ⟨.ok t.1, t.2, events⟩
  | ⟨.error stop, t, events⟩ =>
      let ended := takeDown t
      ⟨.error stop, ended.state.2, events ++ ended.events⟩

theorem bind_of_ok {x : Action σ α} {f : α → Action σ β} {s t : σ} {a : α} {events : List Event}
    (h : x s = ⟨.ok a, t, events⟩) : (x >>= f) s = (f a t).after events := by
  change Action.bind x f s = _
  rw [Action.bind, h]

theorem bind_of_error {x : Action σ α} {f : α → Action σ β} {s t : σ} {reason : Stop}
    {events : List Event}
    (h : x s = ⟨.error reason, t, events⟩) : (x >>= f) s = ⟨.error reason, t, events⟩ := by
  change Action.bind x f s = _
  rw [Action.bind, h]

@[simp] theorem run_bind (x : Action σ α) (f : α → Action σ β) (s : σ) :
    (x >>= f) s =
      match x s with
      | ⟨.ok a, t, events⟩ => (f a t).after events
      | ⟨.error stop, t, events⟩ => ⟨.error stop, t, events⟩ := rfl

theorem state_bind (x : Action σ α) (f : α → Action σ β) (s : σ) :
    ((x >>= f) s).state =
      match (x s).result with
      | .ok a => (f a (x s).state).state
      | .error _ => (x s).state := by
  rw [run_bind]
  rcases x s with ⟨result | result, t, events⟩ <;> rfl

theorem result_bind (x : Action σ α) (f : α → Action σ β) (s : σ) :
    ((x >>= f) s).result =
      match (x s).result with
      | .ok a => (f a (x s).state).result
      | .error reason => .error reason := by
  rw [run_bind]
  rcases x s with ⟨result | result, t, events⟩ <;> rfl

theorem state_bind_pure (x : Action σ α) (f : α → β) (s : σ) :
    ((x >>= fun a => pure (f a)) s).state = (x s).state := by
  rw [run_bind]
  rcases x s with ⟨result | result, t, events⟩ <;> rfl

@[simp] theorem run_pure (a : α) (s : σ) : (pure a : Action σ α) s = ⟨.ok a, s, []⟩ := rfl

@[simp] theorem run_stop (reason : Stop) (s : σ) :
    (stop reason : Action σ α) s = ⟨.error reason, s, []⟩ := rfl

@[simp] theorem run_refuse (reason : Refusal) (s : σ) :
    (refuse reason : Action σ α) s = ⟨.error (.refused reason), s, []⟩ := rfl

@[simp] theorem run_violate (assertion : Violation) (s : σ) :
    (violate assertion : Action σ α) s = ⟨.error (.violated assertion), s, []⟩ := rfl

@[simp] theorem run_current (s : σ) : (current : Action σ σ) s = ⟨.ok s, s, []⟩ := rfl

@[simp] theorem run_update (f : σ → σ) (s : σ) : update f s = ⟨.ok (), f s, []⟩ := rfl

@[simp] theorem run_emit (event : Event) (s : σ) : emit event s = ⟨.ok (), s, [event]⟩ := rfl

@[simp] theorem run_log (record : Record) (s : σ) :
    log record s = ⟨.ok (), s, [.logged record]⟩ := rfl

@[simp] theorem run_lift (x : Except Stop α) (s : σ) : (liftM x : Action σ α) s = ⟨x, s, []⟩ := rfl

@[simp] theorem run_lift_violation (x : Except Violation α) (s : σ) :
    (liftM x : Action σ α) s = ⟨x.mapError .violated, s, []⟩ := rfl

@[simp] theorem run_attempt (f : σ → Except Violation σ) (s : σ) :
    attempt f s =
      match f s with
      | .ok t => ⟨.ok (), t, []⟩
      | .error assertion => ⟨.error (.violated assertion), s, []⟩ := rfl

@[simp] theorem run_on (part : σ → τ) (put : τ → σ → σ) (x : Action τ α) (s : σ) :
    on part put x s = ⟨(x (part s)).result, put (x (part s)).state s, (x (part s)).events⟩ := rfl

theorem onSome_of_some {part : σ → Option τ} {s : σ} {t : τ} (h : part s = some t) (put : τ → σ → σ)
    (x : Action τ α) :
    onSome part put x s = ⟨(x t).result, put (x t).state s, (x t).events⟩ := by
  rw [onSome, h]

theorem onSome_of_none {part : σ → Option τ} {s : σ} (h : part s = none) (put : τ → σ → σ)
    (x : Action τ α) : onSome part put x s = ⟨.error .absent, s, []⟩ := by
  rw [onSome, h]

@[simp] theorem run_first (x : Action σ α) (s : σ) (t : τ) :
    first x (s, t) = ⟨(x s).result, ((x s).state, t), (x s).events⟩ := rfl

@[simp] theorem run_second (x : Action τ α) (s : σ) (t : τ) :
    second x (s, t) = ⟨(x t).result, (s, (x t).state), (x t).events⟩ := rfl

end Action

def FaultReport.deny {σ α : Type} (report : FaultReport) : Action σ α := do
  Action.log (.faulted report)
  Action.refuse .protectionFault

end DemandPaging
