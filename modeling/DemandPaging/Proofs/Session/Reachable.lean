import Mathlib.Algebra.Ring.Nat
import DemandPaging.Proofs.Runs
import DemandPaging.Proofs.Session.Answers

/-!
The states that a session can reach from fresh pools by answering requests, and the balance that
holds in all of them: of the frames of a pool none is lost and none is shared.
-/

namespace DemandPaging

/-- A caller does not release a frame that is in use by someone else. -/
def Request.Honest {n : Nat} (s : Session n) (held : Holdings) : Request → Prop
  | .pool id (.release frame) =>
      ∀ pool, s.pools[id]? = some pool → frame ∈ pool.framesInUse → (id, frame) ∈ held
  | _ => True

def Processor.sole : Processor 1 :=
  ⟨0, 0⟩

namespace Session

def machine (s : Session 1) : Machine :=
  s.machines.get 0

variable {n : Nat}

/-- The sessions in which nothing was requested yet. -/
def Fresh (s : Session n) : Prop :=
  ∃ (pools : Array FramePool) (processors : Array (Processor n)),
    (∀ pool ∈ pools, ∃ limit, FramePool.new limit = .ok pool) ∧ s = new pools processors

def answering (x : Session n × Holdings) (request : Request) : Session n × Holdings :=
  let outcome := answer request x.1
  (outcome.state, x.2.after request outcome.result)

/-- The sessions that honest requests lead to from fresh pools, with what the caller holds in them.
Requests that were refused or stopped are among those that have led there. -/
def Reachable (s : Session n) (held : Holdings) : Prop :=
  Reached (fun x => x.1.Fresh ∧ x.2 = []) (fun x request => request.Honest x.1 x.2) answering
    (s, held)

theorem Fresh.reachable {s : Session n} (h : s.Fresh) : Reachable s [] :=
  Reached.start ⟨h, rfl⟩

theorem Reachable.step {s : Session n} {held : Holdings} (h : Reachable s held) (request : Request)
    (honest : request.Honest s held) :
    Reachable (answer request s).state (held.after request (answer request s).result) :=
  Reached.step h request honest

/-- A session with a pool for each limit that a pool can have. -/
def ofLimits (limits : Array UInt64) (processors : Array (Processor n)) : Session n :=
  new (limits.filterMap fun limit => (FramePool.new limit).toOption) processors

theorem exists_limit_of_mem {limits : Array UInt64} {pool : FramePool}
    (h : pool ∈ limits.filterMap fun limit => (FramePool.new limit).toOption) :
    ∃ limit, FramePool.new limit = .ok pool := by
  obtain ⟨limit, -, hlimit⟩ := Array.mem_filterMap.mp h
  refine ⟨limit, ?_⟩
  cases hnew : FramePool.new limit with
  | ok other =>
      rw [hnew] at hlimit
      exact congrArg Except.ok (Option.some.inj hlimit)
  | error assertion =>
      rw [hnew] at hlimit
      cases hlimit

theorem fresh_ofLimits (limits : Array UInt64) (processors : Array (Processor n)) :
    (ofLimits limits processors).Fresh :=
  ⟨_, processors, fun _ => exists_limit_of_mem, rfl⟩

theorem reachable_ofLimits (limits : Array UInt64) (processors : Array (Processor n)) :
    Reachable (ofLimits limits processors) [] :=
  (fresh_ofLimits limits processors).reachable

def heldAfter (s : Session n) (held : Holdings) (requests : List Request) : Holdings :=
  (requests.foldl answering (s, held)).2

def HonestRun (s : Session n) (held : Holdings) (requests : List Request) : Prop :=
  AllAllowed (fun x request => request.Honest x.1 x.2) answering (s, held) requests

theorem foldl_answering (s : Session n) (held : Holdings) (requests : List Request) :
    requests.foldl answering (s, held) = ((run s requests).2, heldAfter s held requests) := by
  refine Prod.ext ?_ rfl
  induction requests generalizing s held with
  | nil => rfl
  | cons request rest ih => exact ih _ _

theorem Reachable.run {s : Session n} {held : Holdings} (h : Reachable s held)
    {requests : List Request} (honest : HonestRun s held requests) :
    Reachable (run s requests).2 (heldAfter s held requests) := by
  rw [Reachable, ← foldl_answering]
  exact Reached.run h honest

/-- A session with a page that was read before its region could be written, in a load phase. -/
def readBeforeLoad : Session 1 :=
  (run (ofLimits #[2] #[.sole])
    [.space 0 (.new 0), .space 0 (.define 0x1000 0x1000 .read),
      .processor 0 (.fault 0 .read 0x1000),
      .space 0 .beginLoad]).2

theorem reachable_readBeforeLoad : Reachable readBeforeLoad [] :=
  (reachable_ofLimits #[2] #[.sole]).run
    (⟨trivial, trivial, trivial, trivial, trivial⟩ : HonestRun (ofLimits #[2] #[.sole]) []
      [.space 0 (.new 0), .space 0 (.define 0x1000 0x1000 .read),
        .processor 0 (.fault 0 .read 0x1000),
        .space 0 .beginLoad])

section Direct

variable {s : Session n} {held : Holdings} (h : Balances s [] held) (id : PoolId)

include h

theorem balances_allocate :
    Balances (answer (.pool id .allocate) s).state []
      (held.after (.pool id .allocate) (answer (.pool id .allocate) s).result) := by
  rw [answer]
  cases hpool : s.pools[id]? with
  | none =>
      rw [onPool_of_none hpool]
      exact h
  | some pool =>
      have howned := h.handedOut id pool hpool
      have hrun : PoolRequest.answer id .allocate pool =
          ⟨.ok (.frame pool.allocate.1), pool.allocate.2, [.allocated id pool.allocate.1]⟩ := rfl
      rw [onPool_of_some hpool, hrun]
      rcases Nat.lt_or_eq_of_le howned.length_le with hroom | hfull
      · obtain ⟨frame, next, hallocate, hnext, -⟩ := howned.allocate_of_room hroom
        rw [hallocate]
        refine h.withPool (fun other hother => ?_) fun _ =>
          hnext.perm (List.perm_middle.symm.trans ?_)
        · exact List.Perm.of_eq (Holdings.on_cons_of_ne held hother frame).symm
        · exact (List.Perm.of_eq (Holdings.on_cons_self held id frame).symm).append_left _
      · rw [howned.allocate_of_full hfull]
        exact h.withPool (fun _ _ => .rfl) fun _ => howned

theorem balances_release (frame : PhysicalAddress)
    (honest : Request.Honest s held (.pool id (.release frame))) :
    Balances (answer (.pool id (.release frame)) s).state []
      (held.after (.pool id (.release frame)) (answer (.pool id (.release frame)) s).result) := by
  rw [answer]
  cases hpool : s.pools[id]? with
  | none =>
      rw [onPool_of_none hpool]
      exact h
  | some pool =>
      have howned := h.handedOut id pool hpool
      by_cases hmem : frame ∈ pool.framesInUse
      · have hheld := honest pool hpool hmem
        have hperm := Holdings.on_perm_erase hheld
        have hfront := howned.perm ((hperm.append_left _).trans List.perm_middle)
        have hrun : PoolRequest.answer id (.release frame) pool =
            ⟨.ok .nothing, pool.takeBack frame, [.releasing id frame]⟩ :=
          Action.bind_of_ok (FramePool.releaseFrame_of_mem hfront id List.mem_cons_self)
        rw [onPool_of_some hpool, hrun]
        refine h.withPool (fun other hother => Holdings.on_perm_erase_of_ne hheld hother)
          fun _ => ?_
        have hnext := hfront.takeBack List.mem_cons_self
        rwa [List.erase_cons_head] at hnext
      · have hrun : PoolRequest.answer id (.release frame) pool =
            ⟨.error (.violated (.notAllocated frame.word)), pool, [.releasing id frame]⟩ :=
          Action.bind_of_error (FramePool.releaseFrame_of_not_mem howned id
            fun hin => hmem (howned.framesInUse_perm.mem_iff.mpr hin))
        rw [onPool_of_some hpool, hrun]
        exact h.withPool (fun _ _ => .rfl) fun _ => howned

end Direct

/-- A request that is honestly made leaves the balance as it should be, however it is answered. -/
theorem balances_answer {s : Session n} {held : Holdings} (h : Balances s [] held)
    {request : Request} (honest : request.Honest s held) :
    Balances (answer request s).state [] (held.after request (answer request s).result) := by
  cases request with
  | pool id request =>
      cases request with
      | allocate => exact balances_allocate h id
      | release frame => exact balances_release h id frame honest
      | _ => exact keeps_answerPool id (by simp) (by simp) s [] held h
  | machine id request =>
      rw [answer]
      split
      · exact keeps_onMachines _ s [] held h
      · exact h
  | table slot request => exact keeps_answerTable slot request s [] held h
  | space slot request => exact keeps_answerSpace slot request s [] held h
  | processor id request =>
      exact keeps_named_bind (fun processor s loose held _ h =>
        keeps_answerProcessor processor request s loose held h)
        s [] held h
  | unguard index =>
      refine keeps_named_bind (fun guard s loose held _ h => ?_) s [] held h
      exact keeps_bind (keeps_onMachines guard.drop) (fun _ => keeps_pure _) _ loose held h

theorem balances_new {pools : Array FramePool} (processors : Array (Processor n))
    (hpools : ∀ pool ∈ pools, ∃ limit, FramePool.new limit = .ok pool) :
    Balances (new pools processors) [] [] where
  wellFormed table htable := by simp [new, liveTables] at htable
  homed table htable := by simp [new, liveTables] at htable
  handedOut id pool hpool := by
    obtain ⟨limit, hlimit⟩ := hpools pool (Array.mem_of_getElem? hpool)
    exact (FramePool.handedOut_new hlimit).1

/-- In every reachable state each pool has handed out the frames of its tables and those held by the
caller, and no others. -/
theorem Reachable.balances {s : Session n} {held : Holdings} (h : Reachable s held) :
    Balances s [] held := by
  refine Reached.keeps h (P := fun x => Balances x.1 [] x.2) ?_ ?_
  · rintro ⟨s, held⟩ ⟨⟨pools, processors, hpools, rfl⟩, rfl⟩
    exact balances_new processors hpools
  · intro x request _ honest ih
    exact balances_answer ih honest

/-- The frames in the entries of those tables that live on one pool. -/
def mappedFramesOn (id : PoolId) (tables : List PageTable) : List PhysicalAddress :=
  (tables.filter fun table => table.pool = id).flatMap fun table =>
    table.mappedPages.map fun item => item.2.frame

theorem mappedFramesOn_perm (id : PoolId) {tables : List PageTable}
    (h : ∀ table ∈ tables, table.WellFormed) :
    (mappedFramesOn id tables).Perm (framesOn id tables) := by
  apply List.Perm.flatMap_left
  intro table htable
  exact PageTable.frames_perm (h table (List.mem_of_mem_filter htable))

theorem length_framesOn (id : PoolId) (tables : List PageTable) :
    (framesOn id tables).length =
      ((tables.filter fun table => table.pool = id).map PageTable.mappedCount).sum := by
  rw [framesOn, List.length_flatMap]
  exact congrArg (fun f => (List.map f _).sum)
    (funext fun table => table.mappedCount_eq_length_frames.symm)

/-- No frame is lost, and none is shared: in every reachable state the frames that a pool has in use
are those in the entries of its tables and those that the caller holds, each of them once and none
of them free. -/
theorem framesInUse_perm_of_reachable {s : Session n} {held : Holdings} (h : Reachable s held)
    {id : PoolId} {pool : FramePool} (hpool : s.pools[id]? = some pool) :
    pool.framesInUse.Perm (mappedFramesOn id s.liveTables ++ held.on id) ∧
      (mappedFramesOn id s.liveTables ++ held.on id).Nodup ∧
      (∀ frame ∈ mappedFramesOn id s.liveTables ++ held.on id, frame ∉ pool.free) ∧
      pool.allocations = pool.releases + pool.outstanding ∧
      pool.outstanding =
        ((s.liveTables.filter fun table => table.pool = id).map PageTable.mappedCount).sum +
          (held.on id).length := by
  have howned := h.balances.handedOut id pool hpool
  have hperm := (mappedFramesOn_perm id h.balances.wellFormed).append_right (held.on id)
  have hlength := howned.outstanding_eq
  refine ⟨howned.framesInUse_perm.trans hperm.symm, hperm.nodup_iff.mpr howned.nodup, ?_, ?_, ?_⟩
  · intro frame hframe
    exact howned.not_mem_free (hperm.mem_iff.mp hframe)
  · rw [hlength]
    exact howned.allocations
  · rw [hlength, List.length_append, length_framesOn]
    rfl

/-- A session in which one frame is mapped and the caller holds another one. -/
def mappedAndHeld : Session 0 :=
  (run (ofLimits #[4] #[]) [.table 0 (.new 0), .table 0 (.create ⟨3⟩ true), .pool 0 .allocate]).2

theorem reachable_mappedAndHeld : ∃ held, Reachable mappedAndHeld held :=
  ⟨_, (reachable_ofLimits #[4] #[]).run
    (⟨trivial, trivial, trivial, trivial⟩ : HonestRun (ofLimits #[4] #[]) []
      [.table 0 (.new 0), .table 0 (.create ⟨3⟩ true), .pool 0 .allocate])⟩

theorem framesInUse_perm_of_mappedAndHeld :
    ∃ (held : Holdings) (pool : FramePool),
      Reachable mappedAndHeld held ∧ mappedAndHeld.pools[0]? = some pool ∧
        pool.framesInUse.Perm (mappedFramesOn 0 mappedAndHeld.liveTables ++ held.on 0) ∧
        pool.outstanding = 2 := by
  obtain ⟨held, hreachable⟩ := reachable_mappedAndHeld
  have hcount : mappedAndHeld.pools[0]?.map FramePool.outstanding = some 2 := by decide +kernel
  obtain ⟨pool, hpool, houtstanding⟩ := Option.map_eq_some_iff.mp hcount
  exact ⟨held, pool, hreachable, hpool, (framesInUse_perm_of_reachable hreachable hpool).1,
    houtstanding⟩

end Session

end DemandPaging
