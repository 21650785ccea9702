import DemandPaging.Proofs.Session.Coherence

/-!
Sessions that are watched. A watcher notes which space is current, whether it was activated since it
became current, and for which spaces regions were declared since the cache was emptied last. If
callers keep to a few rules, the cache agrees with the current space after it was activated.
-/

namespace DemandPaging

/-- A session with a single machine, and what a watcher has noted. -/
structure Watched where
  session : Session 1
  held : Holdings
  current : Option SlotId
  /-- Whether the current space was activated since it became current. -/
  activated : Bool
  /-- The slots of the spaces for which regions were declared since the cache was emptied last. -/
  declared : List SlotId

/-- What may happen in a session with a current space: a request, or another space becomes current,
or none. -/
inductive Move
  | request (request : Request)
  | enter (slot : SlotId)
  | leave

namespace Watched

open Session (answer)

/-- The requests that keep to the rules. The machine is written through processors alone, and with
mappings from faults alone. A fault happens without a space, or in the current space after that was
activated. -/
def Allows (w : Watched) : Request → Prop
  | .machine _ _ | .processor _ (.install _ _ _) => False
  | .processor _ (.fault slot _ _) | .processor _ (.rawFault slot _ _) =>
      w.session.spaces.get? slot = none ∨ w.current = some slot ∧ w.activated = true
  | _ => True

def Follows (w : Watched) : Move → Prop
  | .request request => request.Honest w.session w.held ∧ w.Allows request
  | .enter slot => (w.session.spaces.get? slot).isSome = true
  | .leave => True

/-- What is noted after a move. A space that is gone, or was replaced, is no longer current. -/
def after (w : Watched) : Move → Watched
  | .request request =>
      let outcome := answer request w.session
      let done := fun of => request.done? of outcome.result
      { session := outcome.state
        held := w.held.after request outcome.result
        current := w.current.filter fun slot => done Request.ending? ≠ some slot
        activated := w.activated || w.current.any fun slot => done Request.activating? = some slot
        declared :=
          if outcome.state.machine.invalidations = w.session.machine.invalidations then
            (done Request.declaring?).toList ++ w.declared
          else [] }
  | .enter slot => { w with current := some slot, activated := false }
  | .leave => { w with current := none, activated := false }

def Fresh (w : Watched) : Prop :=
  w.session.Fresh ∧ w.held = [] ∧ w.current = none ∧ w.activated = false ∧ w.declared = []

/-- The states to which moves that keep to the rules lead from fresh pools. -/
def Disciplined (w : Watched) : Prop :=
  Reached Fresh Follows after w

/-- What holds after every move: the current space is there, and the cache is coherent with it if it
was activated. -/
structure Sound (w : Watched) : Prop where
  reachable : Session.Reachable w.session w.held
  coherent : ∀ slot, w.current = some slot → ∃ space, w.session.spaces.get? slot = some space ∧
    (w.activated = true → space.Coherent w.session.machine (slot ∉ w.declared))

section Request

variable {w : Watched} {slot : SlotId} {space : AddressSpace} {request : Request}

/-- A request that keeps to the rules keeps the cache coherent with the current space, unless that
is gone. -/
theorem keepsCoherent_answer (h : Session.Reachable w.session w.held)
    (hcurrent : w.current = some slot) (hspace : w.session.spaces.get? slot = some space)
    (hallows : w.Allows request)
    (hstays : request.done? Request.ending? (answer request w.session).result ≠ some slot) :
    Session.KeepsCoherent request w.session slot space := by
  have hfaults : ∀ other, w.session.spaces.get? other = none ∨
      w.current = some other ∧ w.activated = true →
        other = slot ∨ w.session.spaces.get? other = none := by
    rintro other (habsent | ⟨hother, -⟩)
    · exact .inr habsent
    · exact .inl (Option.some.inj (hother.symm.trans hcurrent))
  cases request with
  | pool id request => exact Session.keepsCoherent_pool hspace id request
  | machine id request => exact hallows.elim
  | table other request => exact Session.keepsCoherent_table hspace other request
  | space other request => exact Session.keepsCoherent_space h.balances hspace request hstays
  | processor id request =>
      apply Session.keepsCoherent_processor h.balances hspace
      · rintro page frame flags rfl
        exact hallows
      · rintro other access word rfl
        exact hfaults other hallows
      · rintro other code word rfl
        exact hfaults other hallows
  | unguard index => exact Session.keepsCoherent_unguard hspace index

theorem Sound.after_request (h : w.Sound) (hfollows : w.Follows (.request request)) :
    (w.after (.request request)).Sound where
  reachable := h.reachable.step request hfollows.1
  coherent := by
    intro slot hcurrent
    obtain ⟨hcurrent, hstays⟩ := Option.filter_eq_some_iff.mp hcurrent
    obtain ⟨space, hspace, hcoherent⟩ := h.coherent slot hcurrent
    obtain ⟨next, hnext, hempty | ⟨hcount, hinactive, hkeeps⟩⟩ :=
      keepsCoherent_answer h.reachable hcurrent hspace hfollows.2 (by simpa using hstays)
    · exact ⟨next, hnext, fun _ => .of_empty hempty⟩
    · -- The cache was not emptied, so what was noted before still counts.
      refine ⟨next, hnext, fun hactivated => ?_⟩
      have hbefore : w.activated = true := by
        simpa [after, hcurrent, hinactive] using hactivated
      refine (hkeeps _ (hcoherent hbefore)).weaken fun hdeclared => ?_
      simpa [after, hcount, and_comm, eq_comm] using hdeclared

end Request

theorem Sound.after {w : Watched} (h : w.Sound) {move : Move} (hfollows : w.Follows move) :
    (w.after move).Sound := by
  cases move with
  | request request => exact h.after_request hfollows
  | enter slot =>
      refine ⟨h.reachable, fun other hother => ?_⟩
      obtain rfl := Option.some.inj hother
      obtain ⟨space, hspace⟩ := Option.isSome_iff_exists.mp hfollows
      exact ⟨space, hspace, nofun⟩
  | leave => exact ⟨h.reachable, nofun⟩

theorem Disciplined.sound {w : Watched} (h : Disciplined w) : w.Sound := by
  refine Reached.keeps h (P := Sound) ?_ ?_
  · rintro ⟨s, held, current, activated, declared⟩ ⟨hsession, rfl, rfl, -⟩
    exact ⟨hsession.reachable, nofun⟩
  · intro w move _ hfollows ih
    exact ih.after hfollows

def run (w : Watched) (moves : List Move) : Watched :=
  moves.foldl after w

def FollowsAll (w : Watched) (moves : List Move) : Prop :=
  AllAllowed Follows after w moves

theorem Disciplined.run {w : Watched} (h : Disciplined w) {moves : List Move}
    (hfollows : w.FollowsAll moves) : Disciplined (w.run moves) :=
  Reached.run h hfollows

def ofLimits (limits : Array UInt64) (processors : Array (Processor 1)) : Watched :=
  ⟨.ofLimits limits processors, [], none, false, []⟩

theorem disciplined_ofLimits (limits : Array UInt64) (processors : Array (Processor 1)) :
    Disciplined (ofLimits limits processors) :=
  Reached.start ⟨Session.fresh_ofLimits limits processors, rfl, rfl, rfl, rfl⟩

/-- While a space is current and was activated, every mapping in the cache is the valid mapping of
an aligned page to the frame of its entry, and writable only if the entry is. As long as no region
was declared for the space since the cache was emptied, a writable mapping is one of a page that may
be written now. -/
theorem mirrors_of_disciplined {w : Watched} (h : Disciplined w) {slot : SlotId}
    (hcurrent : w.current = some slot) (hactivated : w.activated = true) :
    ∃ space, w.session.spaces.get? slot = some space ∧
      ∀ mapping, some mapping ∈ w.session.machine.slots →
        space.Mirrors mapping ∧ (slot ∉ w.declared → space.Permits mapping) := by
  obtain ⟨space, hspace, hcoherent⟩ := h.sound.coherent slot hcurrent
  refine ⟨space, hspace, fun mapping hmem => ⟨?_, fun hdeclared => ?_⟩⟩
  · exact (hcoherent hactivated).mirrors mapping hmem
  · exact (hcoherent hactivated).permits hdeclared mapping hmem

/-- A space that was written to in one page, after it was activated. -/
def writtenTo : Watched :=
  (ofLimits #[1] #[.sole]).run
    [.request (.space 0 (.new 0)), .request (.space 0 (.define 0x1000 0x1000 .readWrite)), .enter 0,
      .request (.processor 0 (.activate 0)), .request (.processor 0 (.fault 0 .write 0x1000))]

theorem disciplined_writtenTo : Disciplined writtenTo :=
  (disciplined_ofLimits #[1] #[.sole]).run
    (⟨⟨trivial, trivial⟩, ⟨trivial, trivial⟩,
      (by change Option.isSome _ = true; decide +kernel), ⟨trivial, trivial⟩,
      ⟨trivial, .inr ⟨by decide +kernel, by decide +kernel⟩⟩, trivial⟩ :
      (ofLimits #[1] #[.sole]).FollowsAll
        [.request (.space 0 (.new 0)), .request (.space 0 (.define 0x1000 0x1000 .readWrite)),
          .enter 0, .request (.processor 0 (.activate 0)),
          .request (.processor 0 (.fault 0 .write 0x1000))])

theorem mirrors_of_writtenTo :
    writtenTo.declared = [] ∧ ∃ space mapping, writtenTo.session.spaces.get? 0 = some space ∧
      some mapping ∈ writtenTo.session.machine.slots ∧ mapping.entry.isDirty = true ∧
      space.Mirrors mapping ∧ space.Permits mapping := by
  have hcurrent : writtenTo.current = some 0 := by decide +kernel
  have hactivated : writtenTo.activated = true := by decide +kernel
  have hdeclared : writtenTo.declared = [] := by decide +kernel
  have hcached : (writtenTo.session.machine.slots[0].map fun mapping => mapping.entry.isDirty) =
      some true := by
    decide +kernel
  obtain ⟨mapping, hmapping, hdirty⟩ := Option.map_eq_some_iff.mp hcached
  have hmem : some mapping ∈ writtenTo.session.machine.slots :=
    hmapping ▸ Vector.getElem_mem _
  obtain ⟨space, hspace, hagrees⟩ :=
    mirrors_of_disciplined disciplined_writtenTo hcurrent hactivated
  obtain ⟨hmirrors, hpermits⟩ := hagrees mapping hmem
  exact ⟨hdeclared, space, mapping, hspace, hmem, hdirty, hmirrors,
    hpermits (by rw [hdeclared]; exact List.not_mem_nil)⟩

end Watched

end DemandPaging
