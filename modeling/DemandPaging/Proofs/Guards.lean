import Mathlib.Data.List.Induction
import DemandPaging.Proofs.Interrupts

/-!
Guards of the interrupts of one machine, dropped in any order. Each guard remembers the level that
it found. So the guard that was taken while no other was alive carries the level from before, and
all others only keep interrupts masked. They do so until the last one is dropped exactly if that
first one is not dropped before the others, or if interrupts were masked anyway.
-/

namespace DemandPaging

/-- What may happen to the interrupts of a machine. A guard that is dropped is named by its place
among those alive. -/
inductive GuardCall (n : Nat)
  | take
  | drop (place : Nat)
  | install (processor : Processor n) (mapping : Mapping)
  | invalidate (processor : Processor n)

/-- Machines with the guards alive of one of them, in the order in which they were taken, and the
level from before the first of them was taken. -/
structure Guarding (n : Nat) where
  machines : Machines n
  guards : List (Guard n)
  before : InterruptLevel

namespace Guarding

variable {n : Nat}

def start (id : Fin n) (machines : Machines n) : Guarding n :=
  ⟨machines, [], (machines.get id).level⟩

def perform (id : Fin n) (s : Guarding n) : GuardCall n → Guarding n
  | .take =>
      { machines := (Guard.take id s.machines).state
        guards := s.guards ++ (Guard.take id s.machines).result.toOption.toList
        before := if s.guards = [] then (s.machines.get id).level else s.before }
  | .drop place =>
      match s.guards[place]? with
      | some guard =>
          { s with
            machines := (guard.drop s.machines).state
            guards := s.guards.eraseIdx place }
      | none => s
  | .install processor mapping =>
      { s with machines := (processor.install mapping s.machines).state }
  | .invalidate processor =>
      { s with machines := (processor.invalidate s.machines).state }

def run (id : Fin n) (s : Guarding n) (calls : List (GuardCall n)) : Guarding n :=
  calls.foldl (perform id) s

theorem run_concat (id : Fin n) (s : Guarding n) (calls : List (GuardCall n)) (call : GuardCall n) :
    s.run id (calls ++ [call]) = (s.run id calls).perform id call :=
  List.foldl_concat ..

/-- What guards promise: interrupts are masked while one is alive, and after the last one was
dropped they are as before the first one. -/
structure AsPromised (id : Fin n) (s : Guarding n) : Prop where
  masked : s.guards ≠ [] → (s.machines.get id).level = .masked
  restored : s.guards = [] → (s.machines.get id).level = s.before

/-- The first guard may not be dropped while others are alive, unless interrupts were masked
before. -/
def Admits (s : Guarding n) : GuardCall n → Prop
  | .drop 0 => s.guards.length ≤ 1 ∨ s.before = .masked
  | _ => True

/-- The guards alive remember the right levels: the first one that from before, and all others that
interrupts were masked. -/
inductive Held (id : Fin n) : Guarding n → Prop
  | idle {machines : Machines n} {before : InterruptLevel}
      (hlevel : (machines.get id).level = before) : Held id ⟨machines, [], before⟩
  | alive {machines : Machines n} {before : InterruptLevel} {later : List (Guard n)}
      (hlater : ∀ guard ∈ later, guard = ⟨id, .masked⟩)
      (hlevel : (machines.get id).level = .masked) :
      Held id ⟨machines, ⟨id, before⟩ :: later, before⟩

theorem perform_drop_of_some {id : Fin n} {s : Guarding n} {place : Nat} {guard : Guard n}
    (h : s.guards[place]? = some guard) :
    s.perform id (.drop place) =
      ⟨s.machines.atLevel guard.machine guard.prior, s.guards.eraseIdx place, s.before⟩ := by
  rw [perform, h]
  rfl

theorem perform_drop_of_none {id : Fin n} {s : Guarding n} {place : Nat}
    (h : s.guards[place]? = none) : s.perform id (.drop place) = s := by
  rw [perform, h]

namespace Held

variable {id : Fin n} {s : Guarding n} (h : s.Held id)

include h

theorem asPromised : s.AsPromised id := by
  cases h with
  | idle hlevel => exact ⟨fun hguards => absurd rfl hguards, fun _ => hlevel⟩
  | alive hlater hlevel => exact ⟨fun _ => hlevel, nofun⟩

theorem of_level {machines : Machines n}
    (hlevel : (machines.get id).level = (s.machines.get id).level) :
    Held id { s with machines } := by
  cases h with
  | idle hbefore => exact .idle (hlevel.trans hbefore)
  | alive hlater hmasked => exact .alive hlater (hlevel.trans hmasked)

theorem take : (s.perform id .take).Held id := by
  cases h with
  | idle hlevel => exact .alive (by simp) (Machines.level_atLevel_self _ id .masked)
  | alive hlater hlevel =>
      refine .alive (fun guard hguard => ?_) (Machines.level_atLevel_self _ id .masked)
      rcases List.mem_append.mp hguard with hold | hnew
      · exact hlater guard hold
      · rw [List.mem_singleton.mp hnew, hlevel]

theorem drop_later (place : Nat) : (s.perform id (.drop (place + 1))).Held id := by
  cases h with
  | idle hlevel =>
      rw [perform_drop_of_none List.getElem?_nil]
      exact .idle hlevel
  | @alive machines before later hlater hlevel =>
      have hplace : (⟨id, before⟩ :: later)[place + 1]? = later[place]? := List.getElem?_cons_succ
      cases hguard : later[place]? with
      | none =>
          rw [perform_drop_of_none (hplace.trans hguard)]
          exact .alive hlater hlevel
      | some guard =>
          obtain rfl := hlater guard (List.mem_of_getElem? hguard)
          rw [perform_drop_of_some (hplace.trans hguard), List.eraseIdx_cons_succ]
          exact .alive (fun other hother => hlater other (List.mem_of_mem_eraseIdx hother))
            (Machines.level_atLevel_self machines id .masked)

theorem drop_first (hadmits : s.guards.length ≤ 1 ∨ s.before = .masked) :
    (s.perform id (.drop 0)).Held id := by
  cases h with
  | idle hlevel =>
      rw [perform_drop_of_none List.getElem?_nil]
      exact .idle hlevel
  | @alive machines before later hlater hlevel =>
      rw [perform_drop_of_some List.getElem?_cons_zero, List.eraseIdx_cons_zero]
      cases later with
      | nil => exact .idle (Machines.level_atLevel_self machines id before)
      | cons guard later =>
          obtain ⟨rfl, hrest⟩ := List.forall_mem_cons.mp hlater
          obtain rfl : before = .masked := hadmits.resolve_left (by simp)
          exact .alive hrest (Machines.level_atLevel_self machines id .masked)

theorem step (call : GuardCall n) (hadmits : s.Admits call) : (s.perform id call).Held id := by
  cases call with
  | take => exact h.take
  | drop place =>
      cases place with
      | zero => exact h.drop_first hadmits
      | succ place => exact h.drop_later place
  | install processor mapping =>
      exact h.of_level ((processor.masksAround_install mapping s.machines).level id)
  | invalidate processor =>
      exact h.of_level ((processor.masksAround_invalidate s.machines).level id)

theorem not_asPromised {call : GuardCall n} (hadmits : ¬ s.Admits call) :
    ¬ (s.perform id call).AsPromised id := by
  cases call with
  | take => exact absurd trivial hadmits
  | install processor mapping => exact absurd trivial hadmits
  | invalidate processor => exact absurd trivial hadmits
  | drop place =>
      cases place with
      | succ place => exact absurd trivial hadmits
      | zero =>
          cases h with
          | idle hlevel => exact absurd (.inl (Nat.zero_le 1)) hadmits
          | @alive machines before later hlater hlevel =>
              obtain ⟨hothers, hbefore⟩ := not_or.mp hadmits
              have halive : later ≠ [] := by
                rintro rfl
                exact hothers (Nat.le_refl 1)
              rw [perform_drop_of_some List.getElem?_cons_zero, List.eraseIdx_cons_zero]
              intro hpromised
              exact hbefore ((Machines.level_atLevel_self machines id before).symm.trans
                (hpromised.masked halive))

theorem run {calls : List (GuardCall n)}
    (hadmits : ∀ earlier call, earlier ++ [call] <+: calls →
      (s.run id earlier).Held id → (s.run id earlier).Admits call)
    {earlier : List (GuardCall n)} (hstart : earlier <+: calls) : (s.run id earlier).Held id := by
  induction earlier using List.reverseRecOn with
  | nil => exact h
  | append_singleton earlier call ih =>
      have hheld := ih ((List.prefix_append earlier [call]).trans hstart)
      rw [run_concat]
      exact hheld.step call (hadmits earlier call hstart hheld)

theorem asPromised_iff (calls : List (GuardCall n)) :
    (∀ earlier, earlier <+: calls → (s.run id earlier).AsPromised id) ↔
      ∀ earlier call, earlier ++ [call] <+: calls → (s.run id earlier).Admits call := by
  constructor
  · intro hpromised
    -- The first call that is not admitted would break the promise.
    have hadmits : ∀ earlier call, earlier ++ [call] <+: calls →
        (s.run id earlier).Held id → (s.run id earlier).Admits call := by
      intro earlier call hstart hheld
      by_contra hnot
      have hafter := hpromised (earlier ++ [call]) hstart
      rw [run_concat] at hafter
      exact hheld.not_asPromised hnot hafter
    intro earlier call hstart
    have hbefore := (List.prefix_append earlier [call]).trans hstart
    exact hadmits earlier call hstart (h.run hadmits hbefore)
  · intro hadmitted earlier hstart
    exact (h.run (fun earlier call hcall _ => hadmitted earlier call hcall) hstart).asPromised

end Held

/-- Guards keep their promise, whatever the processors do in between, exactly if no guard that found
interrupts enabled is dropped while others are alive. -/
theorem asPromised_iff_admitted (id : Fin n) (machines : Machines n) (calls : List (GuardCall n)) :
    (∀ earlier, earlier <+: calls → ((start id machines).run id earlier).AsPromised id) ↔
      ∀ earlier call, earlier ++ [call] <+: calls →
        ((start id machines).run id earlier).Admits call :=
  (Held.idle rfl).asPromised_iff calls

def firstDropped (id : Fin n) (machines : Machines n) : Guarding n :=
  (start id machines).run id [.take, .take, .drop 0]

/-- If interrupts were enabled, they are enabled again although the second guard is alive. When it
is dropped as well, they are masked, which they were not before. -/
theorem not_asPromised_of_firstDropped :
    ∃ s : Guarding 1, firstDropped 0 #v[Machine.new] = s ∧
      s.guards = [⟨0, .masked⟩] ∧ (s.machines.get 0).level = .enabled ∧ ¬ s.AsPromised 0 ∧
      (s.perform 0 (.drop 0)).guards = [] ∧
      ((s.perform 0 (.drop 0)).machines.get 0).level = .masked ∧
      (s.perform 0 (.drop 0)).before = .enabled := by
  have hlevel : ((firstDropped 0 #v[Machine.new]).machines.get (0 : Fin 1)).level ≠ .masked := by
    decide +kernel
  have hguards : (firstDropped (0 : Fin 1) #v[Machine.new]).guards ≠ [] := by
    decide +kernel
  exact ⟨_, rfl, by decide +kernel, by decide +kernel, fun h => hlevel (h.masked hguards),
    by decide +kernel, by decide +kernel, by decide +kernel⟩

end Guarding

end DemandPaging
