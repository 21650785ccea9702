import DemandPaging.Proofs.InRange
import DemandPaging.Proofs.Session.Chronicle

namespace DemandPaging

/-- The requests that make up the interface of address spaces: to make, shape, copy and give up a
space, to translate addresses, to handle a fault and to switch spaces. Bytes are read and written by
their physical addresses and not through the interface. -/
def Request.toSpace : Request → Bool
  | .space _ (.poke _ _) | .space _ (.peek _ _) => false
  | .space _ _ => true
  | .processor _ (.fault _ _ _) | .processor _ (.rawFault _ _ _) => true
  | .processor _ (.activate _) | .processor _ (.deactivate _) => true
  | _ => false

namespace Session

variable {n : Nat} {s : Session n}

def Safe (outcome : Outcome (Session n) Answer) : Prop :=
  ∀ assertion, outcome.result ≠ .error (.violated assertion)

theorem safe_of_ok {outcome : Outcome (Session n) Answer} {a : Answer}
    (h : outcome.result = .ok a) : Safe outcome := by
  intro assertion hviolated
  rw [h] at hviolated
  contradiction

theorem Effect.safe {request : Request} {slot : SlotId} {deed : Deed}
    (h : Effect request s slot) (hdeed : request.deed? = some (slot, deed)) :
    Safe (answer request s) := by
  cases h with
  | elsewhere hnone hsame => exact absurd hdeed (hnone deed)
  | declined other hother reason hresult hreason hdeclined =>
      intro assertion hviolated
      rw [hresult] at hviolated
      exact hreason assertion (Except.error.inj hviolated)
  | did other hother a hresult hdid => exact safe_of_ok hresult

theorem safe_named_bind {α : Type} {value : Session n → Option α}
    {f : α → Action (Session n) Answer} (hf : ∀ a, value s = some a → Safe (f a s)) :
    Safe ((named value >>= f) s) := by
  rw [named_bind]
  cases hvalue : value s with
  | some a => exact hf a hvalue
  | none => exact nofun

theorem safe_activate {processor : Processor n} (hsame : processor.cache = processor.interrupts)
    (slot : SlotId) :
    Safe ((onProcess slot (Context.activate processor) >>= fun _ => pure Answer.nothing) s) := by
  have hactivate : (onProcess slot (Context.activate processor) s).result = .ok () := by
    rw [onProcess, Action.run_on]
    cases space? slot s with
    | none => rfl
    | some t =>
        obtain ⟨events, hinvalidate⟩ := Processor.invalidate_of_same hsame s.machines
        rw [Context.activate, Action.ifPresent, Action.run_second, hinvalidate]
  have hresult : ((onProcess slot (Context.activate processor) >>= fun _ =>
      pure Answer.nothing) s).result = .ok .nothing := by
    rw [Action.result_bind, hactivate]
    rfl
  exact safe_of_ok hresult

theorem safe_of_deed?_eq_none {request : Request} (hinterface : request.toSpace = true)
    (hmasks : request.MasksOwn s) (hdeed : request.deed? = none) : Safe (answer request s) := by
  cases request with
  | space slot request =>
      cases request with
      | info => exact safe_named_bind fun _ _ => nofun
      | physical addresses => exact safe_named_bind fun _ _ => nofun
      | sameRegions other => exact safe_named_bind fun _ _ => safe_named_bind fun _ _ => nofun
      | _ => contradiction
  | processor id request =>
      refine safe_named_bind fun processor hprocessor => ?_
      have hsame := hmasks processor hprocessor
      cases request with
      | activate slot => exact safe_activate hsame slot
      | deactivate slot => exact safe_activate hsame slot
      | _ => contradiction
  | _ => contradiction

end Session

namespace Chronicle

open Session (answer)

variable {n : Nat} {c : Chronicle n}

/-- In every state of every run a request of the interface fails no assertion, whatever its
arguments are, and what the operations use without asserting it is in range: page numbers,
translations, positions of blocks, indices and addresses of frames. -/
theorem safe_of_recorded (h : Recorded c) {request : Request} (hinterface : request.toSpace = true)
    (hmasks : request.MasksOwn c.session) :
    (∀ assertion, (answer request c.session).result ≠ .error (.violated assertion)) ∧
      ∀ slot space pool, Session.space? slot c.session = some (space, pool) →
        space.InRange pool := by
  constructor
  · cases hdeed : request.deed? with
    | none => exact Session.safe_of_deed?_eq_none hinterface hmasks hdeed
    | some target =>
        rcases target with ⟨slot, deed⟩
        exact (h.effect hmasks slot).safe hdeed
  · intro slot space pool hspace
    obtain ⟨owned, hbacked⟩ := h.reachable.balances.exists_backed hspace
    exact AddressSpace.inRange_of_backed hbacked

/-- A space with a page at the upper end of its addresses, which takes the only frame there is. -/
def topPageMapped : Chronicle 1 :=
  (ofLimits #[1] #[.sole]).run
    [.space 0 (.new 0), .space 0 (.define 0xffffffff 1 .readWrite), .space 0 .stack,
      .processor 0 (.fault 0 .write 0xffffffff)]

theorem recorded_topPageMapped : Recorded topPageMapped :=
  (recorded_ofLimits #[1] #[.sole]).run
    (⟨⟨trivial, trivial⟩, ⟨trivial, trivial⟩, ⟨trivial, trivial⟩,
      ⟨trivial, Request.masksOwn_of_single _ _⟩, trivial⟩ :
      (ofLimits #[1] #[.sole]).AllowsAll
        [.space 0 (.new 0), .space 0 (.define 0xffffffff 1 .readWrite), .space 0 .stack,
          .processor 0 (.fault 0 .write 0xffffffff)])

theorem safe_of_topPageMapped :
    (∀ assertion, (answer (.space 0 (.copy 1)) topPageMapped.session).result ≠
        .error (.violated assertion)) ∧
      (∀ assertion, (answer (.processor 0 (.fault 0 .write 0xffffffffffffffff))
        topPageMapped.session).result ≠ .error (.violated assertion)) ∧
      ∃ (space : AddressSpace) (pool : FramePool),
        Session.space? 0 topPageMapped.session = some (space, pool) ∧
        space.table.mappedCount = 1 ∧ space.InRange pool := by
  have hmapped : (Session.space? 0 topPageMapped.session).map
      (fun t => t.1.table.mappedCount) = some 1 := by
    decide +kernel
  obtain ⟨⟨space, pool⟩, hspace, hcount⟩ := Option.map_eq_some_iff.mp hmapped
  obtain ⟨hcopy, hrange⟩ := safe_of_recorded recorded_topPageMapped
    (rfl : Request.toSpace (.space 0 (.copy 1)) = true) trivial
  obtain ⟨hfault, -⟩ := safe_of_recorded recorded_topPageMapped
    (rfl : Request.toSpace (.processor 0 (.fault 0 .write 0xffffffffffffffff)) = true)
    (Request.masksOwn_of_single _ _)
  exact ⟨hcopy, hfault, space, pool, hspace, hcount, hrange 0 space pool hspace⟩

end Chronicle

end DemandPaging
