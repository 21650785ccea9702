import DemandPaging.Proofs.Session.Deeds

/-!
Sessions with a chronicle. For the space in each slot it is noted which regions were declared, when
its load phase began, which faults were served and how many frames they took. What the chronicle
promises about a space is kept by every request if it is kept by what a request can do to a space.
-/

namespace DemandPaging

/-- A fault that was served: its page, and whether the region that decided about it could be
written. -/
structure Touch where
  page : PageNumber
  writable : Bool
  deriving DecidableEq, Repr

/-- What has happened to a space since it was made. -/
structure History where
  /-- The table of the space of which this one is a copy, as it was then. Otherwise it is empty. -/
  origin : PageTable
  declarations : List Declaration
  /-- How many regions there were when the load phase began, if there is one. -/
  loadedFrom : Option Nat
  touches : List Touch
  /-- How many frames the pool of the space has handed out during faults in the space. -/
  allocated : Nat

namespace History

def fresh (pool : PoolId) : History :=
  ⟨.empty pool, [], none, [], 0⟩

def forked (history : History) (origin : PageTable) : History :=
  { history with origin, touches := [], allocated := 0 }

def declared (history : History) (declaration : Declaration) : History :=
  { history with declarations := history.declarations ++ [declaration] }

def opened (history : History) : History :=
  { history with loadedFrom := some history.declarations.length }

def closed (history : History) : History :=
  { history with loadedFrom := none }

def touched (history : History) (touch : Touch) : History :=
  { history with touches := history.touches ++ [touch] }

def charged (history : History) (count : Nat) : History :=
  { history with allocated := history.allocated + count }

end History

/-- A session, what the caller holds in it, and what was noted about the space in each slot. -/
structure Chronicle (n : Nat) where
  session : Session n
  held : Holdings
  histories : SlotId → Option History

namespace Session

variable {n : Nat}

def allocationsAt (slot : SlotId) (s : Session n) : Nat :=
  (space? slot s).elim 0 fun t => t.2.allocations

end Session

def AddressSpace.writableAt (space : AddressSpace) (page : PageNumber) : Bool :=
  (Region.deciding? space.regions page).any fun region => region.permissions.writable

namespace Chronicle

open Session (answer)

variable {n : Nat}

def history? (c : Chronicle n) (slot : SlotId) : Deed → Option History
  | .make pool => some (.fresh pool)
  | .copy source => do
      let space ← c.session.spaces.get? source
      return (← c.histories source).forked space.table
  | .declare declaration => (c.histories slot).map fun history => history.declared declaration
  | .beginLoad => (c.histories slot).map History.opened
  | .endLoad => (c.histories slot).map History.closed
  | .touch page => do
      let space ← c.session.spaces.get? slot
      return (← c.histories slot).touched ⟨page, space.writableAt page⟩
  | .giveUp => none

/-- The frames that a fault took from the pool of the space, whether it was served or not. -/
def spent (c : Chronicle n) (slot : SlotId) (deed : Deed) (t : Session n) : Nat :=
  match deed with
  | .touch _ => t.allocationsAt slot - c.session.allocationsAt slot
  | _ => 0

/-- What is noted about a space of which something was asked. Of what was refused nothing is noted
but the frames that it took. -/
def noted (c : Chronicle n) (slot : SlotId) (deed : Deed) (outcome : Outcome (Session n) Answer) :
    Option History :=
  let known :=
    match outcome.result with
    | .ok _ => c.history? slot deed
    | .error _ => c.histories slot
  known.map fun history => history.charged (c.spent slot deed outcome.state)

def after (c : Chronicle n) (request : Request) : Chronicle n :=
  let outcome := answer request c.session
  { session := outcome.state
    held := c.held.after request outcome.result
    histories := fun slot =>
      match request.deed? with
      | some (target, deed) =>
          if slot = target then c.noted slot deed outcome else c.histories slot
      | none => c.histories slot }

/-- The requests of callers that release what they hold, through processors that mask the machine
whose cache they write. -/
def Allows (c : Chronicle n) (request : Request) : Prop :=
  request.Honest c.session c.held ∧ request.MasksOwn c.session

def Fresh (c : Chronicle n) : Prop :=
  c.session.Fresh ∧ c.held = [] ∧ c.histories = fun _ => none

/-- The chronicles of all runs from fresh pools. -/
def Recorded (c : Chronicle n) : Prop :=
  Reached Fresh Allows after c

theorem Recorded.step {c : Chronicle n} (h : Recorded c) (request : Request)
    (hallows : c.Allows request) : Recorded (c.after request) :=
  Reached.step h request hallows

theorem Recorded.reachable {c : Chronicle n} (h : Recorded c) :
    Session.Reachable c.session c.held := by
  refine Reached.keeps h (P := fun c => Session.Reachable c.session c.held) ?_ ?_
  · rintro c ⟨hsession, hheld, -⟩
    rw [hheld]
    exact hsession.reachable
  · intro c request _ hallows ih
    exact ih.step request hallows.1

def run (c : Chronicle n) (requests : List Request) : Chronicle n :=
  requests.foldl after c

def AllowsAll (c : Chronicle n) (requests : List Request) : Prop :=
  AllAllowed Allows after c requests

theorem Recorded.run {c : Chronicle n} (h : Recorded c) {requests : List Request}
    (hallows : c.AllowsAll requests) : Recorded (c.run requests) :=
  Reached.run h hallows

def ofLimits (limits : Array UInt64) (processors : Array (Processor n)) : Chronicle n :=
  ⟨.ofLimits limits processors, [], fun _ => none⟩

theorem recorded_ofLimits (limits : Array UInt64) (processors : Array (Processor n)) :
    Recorded (ofLimits limits processors) :=
  Reached.start ⟨Session.fresh_ofLimits limits processors, rfl, rfl⟩

/-- A promise about spaces and their histories that is kept by all that can be done to a space. The
tables of spaces in sessions are well formed, so the promise may rely on that. -/
structure Kept (P : AddressSpace → History → Prop) : Prop where
  blank : ∀ pool, P (.blank pool) (.fresh pool)
  fork : ∀ {space copy history pool next}, P space history → space.IsFork copy pool next →
    P copy (history.forked space.table)
  withRegion : ∀ {space history declaration region}, P space history →
    declaration.region = .ok region → P (space.withRegion region) (history.declared declaration)
  opened : ∀ {space history}, P space history → space.loading = false →
    P space.opened history.opened
  closed : ∀ {space history}, P space history → space.loading = true →
    P space.closed history.closed
  touched : ∀ {before after history} {address : VirtualAddress}, P before.1 history →
    before.1.table.WellFormed → AddressSpace.Touches address.pageNumber before after →
    P after.1
      ((history.touched ⟨address.pageNumber, before.1.writableAt address.pageNumber⟩).charged
        (after.2.allocations - before.2.allocations))
  withBlock : ∀ {space history} (first : FirstIndex), P space history → space.table.WellFormed →
    P { space with table := space.table.withBlock first } history

section Notes

variable {c : Chronicle n} {request : Request} {slot : SlotId} {deed : Deed}

theorem histories_of_elsewhere (hdeed : ∀ deed, request.deed? ≠ some (slot, deed)) :
    (c.after request).histories slot = c.histories slot := by
  rw [after]
  cases hsome : request.deed? with
  | none => rfl
  | some target =>
      rcases target with ⟨target, deed⟩
      refine if_neg ?_
      rintro rfl
      exact hdeed deed hsome

theorem histories_of_deed (hdeed : request.deed? = some (slot, deed)) :
    (c.after request).histories slot = c.noted slot deed (answer request c.session) := by
  rw [after, hdeed]
  exact if_pos rfl

theorem noted_of_ok {outcome : Outcome (Session n) Answer} {a : Answer}
    (hresult : outcome.result = .ok a) :
    c.noted slot deed outcome = (c.history? slot deed).map fun history =>
      history.charged (c.spent slot deed outcome.state) := by
  simp only [noted, hresult]

theorem noted_of_error {outcome : Outcome (Session n) Answer} {reason : Stop}
    (hresult : outcome.result = .error reason) :
    c.noted slot deed outcome = (c.histories slot).map fun history =>
      history.charged (c.spent slot deed outcome.state) := by
  simp only [noted, hresult]

theorem allocationsAt_of_space? {s : Session n} {t : AddressSpace × FramePool}
    (h : Session.space? slot s = some t) : s.allocationsAt slot = t.2.allocations := by
  rw [Session.allocationsAt, h]
  rfl

theorem spent_of_declined {t : Session n} (hdeclined : Session.Declined c.session t slot deed) :
    c.spent slot deed t = 0 := by
  cases deed with
  | touch page =>
      obtain ⟨hpools, hspaces⟩ := hdeclined
      have hsame : t.allocationsAt slot = c.session.allocationsAt slot := by
        rw [Session.allocationsAt, Session.allocationsAt, Session.space?, Session.space?, hpools]
        rcases hspaces with hspace | ⟨space, first, hspace, hnext⟩
        · rw [hspace]
        · rw [hspace, hnext]
          simp only [Option.bind_eq_bind, Option.bind_some, PageTable.pool_withBlock]
          cases c.session.pools[space.table.pool]? <;> rfl
      rw [spent, hsame, Nat.sub_self]
  | _ => rfl

end Notes

section Kept

variable {c : Chronicle n} {P : AddressSpace → History → Prop}

/-- Every space has a history, and what is promised holds of both. -/
def Keeps (P : AddressSpace → History → Prop) (c : Chronicle n) : Prop :=
  ∀ slot space, c.session.spaces.get? slot = some space →
    ∃ history, c.histories slot = some history ∧ P space history

def Tabled (c : Chronicle n) : Prop :=
  ∀ slot space, c.session.spaces.get? slot = some space → space.table.WellFormed

theorem Kept.andStackBase (hP : Kept P) :
    Kept fun space history => space.stackBase = AddressSpace.stackEnd ∧ P space history where
  blank pool := ⟨rfl, hP.blank pool⟩
  fork h hfork := ⟨hfork.stackBase.trans h.1, hP.fork h.2 hfork⟩
  withRegion h hregion := ⟨h.1, hP.withRegion h.2 hregion⟩
  opened h hloading := ⟨h.1, hP.opened h.2 hloading⟩
  closed h hloading := ⟨h.1, hP.closed h.2 hloading⟩
  touched h htable htouches := ⟨htouches.stackBase.trans h.1, hP.touched h.2 htable htouches⟩
  withBlock first h htable := ⟨h.1, hP.withBlock first h.2 htable⟩

variable {slot : SlotId} {deed : Deed} {t : Session n}

theorem keeps_of_declined (hP : Kept P) (hc : c.Keeps P) (htables : c.Tabled) {space : AddressSpace}
    (hdeclined : Session.Declined c.session t slot deed)
    (hspace : t.spaces.get? slot = some space) :
    ∃ history, c.histories slot = some history ∧ P space history := by
  cases deed with
  | copy source =>
      have hspaces : t.spaces = c.session.spaces := hdeclined
      exact hc slot space (hspaces ▸ hspace)
  | touch page =>
      obtain ⟨-, hsame | ⟨before, first, hbefore, hnext⟩⟩ := hdeclined
      · exact hc slot space (hsame ▸ hspace)
      · obtain ⟨history, hhistory, hholds⟩ := hc slot before hbefore
        obtain rfl := Option.some.inj (hnext.symm.trans hspace)
        exact ⟨history, hhistory, hP.withBlock first hholds (htables slot before hbefore)⟩
  | _ =>
      obtain rfl : t = c.session := hdeclined
      exact hc slot space hspace

theorem keeps_of_did (hP : Kept P) (hc : c.Keeps P) (htables : c.Tabled) {space : AddressSpace}
    (hdid : Session.Did c.session t slot deed) (hspace : t.spaces.get? slot = some space) :
    ∃ history, c.history? slot deed = some history ∧
      P space (history.charged (c.spent slot deed t)) := by
  cases deed with
  | make pool =>
      obtain rfl := Option.some.inj (hspace.symm.trans hdid)
      exact ⟨_, rfl, hP.blank pool⟩
  | copy source =>
      obtain ⟨origin, copy, pool, next, horigin, hcopy, hfork⟩ := hdid
      obtain rfl := Option.some.inj (hspace.symm.trans hcopy)
      obtain ⟨history, hhistory, hholds⟩ := hc source origin horigin
      refine ⟨history.forked origin.table, ?_, (hP.fork hholds hfork :)⟩
      rw [history?, horigin, hhistory]
      rfl
  | declare declaration =>
      obtain ⟨before, region, hbefore, hregion, hnext⟩ := hdid
      obtain rfl := Option.some.inj (hspace.symm.trans hnext)
      obtain ⟨history, hhistory, hholds⟩ := hc slot before hbefore
      exact ⟨_, congrArg (Option.map _) hhistory, hP.withRegion hholds hregion⟩
  | beginLoad =>
      obtain ⟨before, hbefore, hloading, hnext⟩ := hdid
      obtain rfl := Option.some.inj (hspace.symm.trans hnext)
      obtain ⟨history, hhistory, hholds⟩ := hc slot before hbefore
      exact ⟨_, congrArg (Option.map _) hhistory, (hP.opened hholds hloading :)⟩
  | endLoad =>
      obtain ⟨before, hbefore, hloading, hnext⟩ := hdid
      obtain rfl := Option.some.inj (hspace.symm.trans hnext)
      obtain ⟨history, hhistory, hholds⟩ := hc slot before hbefore
      exact ⟨_, congrArg (Option.map _) hhistory, (hP.closed hholds hloading :)⟩
  | touch page =>
      obtain ⟨before, next, address, hbefore, hnext, rfl, htouches⟩ := hdid
      obtain ⟨hslot, -⟩ := Session.space?_eq_some_iff.mp hbefore
      obtain rfl := Option.some.inj
        (hspace.symm.trans (Session.space?_eq_some_iff.mp hnext).1)
      obtain ⟨history, hhistory, hholds⟩ := hc slot before.1 hslot
      refine ⟨history.touched ⟨address.pageNumber, before.1.writableAt address.pageNumber⟩, ?_, ?_⟩
      · rw [history?, hslot, hhistory]
        rfl
      · rw [spent, allocationsAt_of_space? hbefore, allocationsAt_of_space? hnext]
        exact hP.touched hholds (htables slot before.1 hslot) htouches
  | giveUp =>
      have hgone : t.spaces.get? slot = none := hdid
      rw [hgone] at hspace
      contradiction

theorem keeps_after (hP : Kept P) (hreachable : Session.Reachable c.session c.held)
    (hc : c.Keeps fun space history => space.stackBase = AddressSpace.stackEnd ∧ P space history)
    {request : Request} (hallows : c.Allows request) :
    (c.after request).Keeps fun space history =>
      space.stackBase = AddressSpace.stackEnd ∧ P space history := by
  intro slot space hspace
  have hstack : ∀ before, c.session.spaces.get? slot = some before →
      before.stackBase = AddressSpace.stackEnd := by
    intro before hbefore
    obtain ⟨history, -, hstack, -⟩ := hc slot before hbefore
    exact hstack
  have htables : c.Tabled := fun slot space hspace =>
    hreachable.balances.wellFormed space.table (Session.mem_liveTables_of_space hspace)
  have hafter : (answer request c.session).state.spaces.get? slot = some space := hspace
  cases Session.effect_answer hreachable.balances hstack hallows.2 with
  | elsewhere hdeed hsame =>
      rw [histories_of_elsewhere hdeed]
      exact hc slot space (hsame.symm.trans hafter)
  | declined deed hdeed reason hresult hreason hdeclined =>
      obtain ⟨history, hhistory, hholds⟩ :=
        keeps_of_declined hP.andStackBase hc htables hdeclined hafter
      refine ⟨history, ?_, hholds⟩
      rw [histories_of_deed hdeed, noted_of_error hresult, spent_of_declined hdeclined, hhistory]
      rfl
  | did deed hdeed a hresult hdid =>
      obtain ⟨history, hhistory, hholds⟩ := keeps_of_did hP.andStackBase hc htables hdid hafter
      refine ⟨_, ?_, hholds⟩
      rw [histories_of_deed hdeed, noted_of_ok hresult, hhistory]
      rfl

theorem Recorded.keeps_andStackBase (hP : Kept P) (h : Recorded c) :
    c.Keeps fun space history => space.stackBase = AddressSpace.stackEnd ∧ P space history := by
  refine Reached.keeps h
    (P := fun c => c.Keeps fun space history => space.stackBase = AddressSpace.stackEnd ∧
      P space history) ?_ ?_
  · rintro ⟨s, held, histories⟩ ⟨⟨pools, processors, -, rfl⟩, -⟩ slot space hspace
    cases hspace
  · intro c request h hallows ih
    exact keeps_after hP (Recorded.reachable h) ih hallows

/-- What is kept by all that can be done to a space holds of every space and its history. -/
theorem Recorded.keeps (hP : Kept P) (h : Recorded c) : c.Keeps P := by
  intro slot space hspace
  obtain ⟨history, hhistory, -, hholds⟩ := h.keeps_andStackBase hP slot space hspace
  exact ⟨history, hhistory, hholds⟩

theorem kept_true : Kept fun _ _ => True :=
  ⟨fun _ => trivial, fun _ _ => trivial, fun _ _ => trivial, fun _ _ => trivial, fun _ _ => trivial,
    fun _ _ _ => trivial, fun _ _ _ => trivial⟩

theorem Recorded.effect (h : Recorded c) {request : Request}
    (hmasks : request.MasksOwn c.session) (slot : SlotId) :
    Session.Effect request c.session slot := by
  refine Session.effect_answer h.reachable.balances (fun space hspace => ?_) hmasks
  obtain ⟨history, -, hstack, -⟩ := h.keeps_andStackBase kept_true slot space hspace
  exact hstack

end Kept

end Chronicle

end DemandPaging
