import Mathlib.Data.List.Basic

namespace DemandPaging

/-- The states that calls lead to, one after the other, from any state at the start. A call may be
allowed in some states and not in others. -/
inductive Reached {σ κ : Type} (start : σ → Prop) (allowed : σ → κ → Prop) (next : σ → κ → σ) :
    σ → Prop
  | start {s : σ} (h : start s) : Reached start allowed next s
  | step {s : σ} (h : Reached start allowed next s) (call : κ) (hallowed : allowed s call) :
      Reached start allowed next (next s call)

/-- Each of some calls is allowed in the state that those before it lead to. -/
def AllAllowed {σ κ : Type} (allowed : σ → κ → Prop) (next : σ → κ → σ) (s : σ) : List κ → Prop
  | [] => True
  | call :: calls => allowed s call ∧ AllAllowed allowed next (next s call) calls

variable {σ κ : Type} {start : σ → Prop} {allowed : σ → κ → Prop} {next : σ → κ → σ} {s : σ}

theorem AllAllowed.of_forall {calls : List κ} (h : ∀ s, ∀ call ∈ calls, allowed s call) :
    AllAllowed allowed next s calls := by
  induction calls generalizing s with
  | nil => trivial
  | cons call calls ih =>
      exact ⟨h s call List.mem_cons_self, ih fun s other hother =>
        h s other (List.mem_cons_of_mem call hother)⟩

namespace Reached

/-- What holds at the start and is kept by every call holds in all states that are reached. -/
theorem keeps (h : Reached start allowed next s) {P : σ → Prop} (hstart : ∀ s, start s → P s)
    (hstep : ∀ s call, Reached start allowed next s → allowed s call → P s → P (next s call)) :
    P s := by
  induction h with
  | start h => exact hstart _ h
  | step h call hallowed ih => exact hstep _ call h hallowed ih

theorem run (h : Reached start allowed next s) {calls : List κ}
    (hallowed : AllAllowed allowed next s calls) :
    Reached start allowed next (calls.foldl next s) := by
  induction calls generalizing s with
  | nil => exact h
  | cons call calls ih => exact ih (h.step call hallowed.1) hallowed.2

end Reached

end DemandPaging
