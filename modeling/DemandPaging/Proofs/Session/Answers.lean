import DemandPaging.Proofs.Session.Placement

namespace DemandPaging

namespace FramePool

variable {pool : FramePool} {owned : List PhysicalAddress}

theorem handedOut_onMemory {α : Type} {x : Action Memory α}
    (hx : ∀ memory, (x memory).state.pages.size = memory.pages.size) (h : pool.HandedOut owned) :
    (onMemory x pool).state.HandedOut owned :=
  h.withMemory (hx pool.memory)

theorem handedOut_write (address : PhysicalAddress) (bytes : List UInt8)
    (h : pool.HandedOut owned) :
    (onMemory (Memory.write address bytes) pool).state.HandedOut owned :=
  handedOut_onMemory (fun memory => Memory.size_pages_write address bytes memory) h

theorem handedOut_zeroFrame (id : PoolId) (frame : PhysicalAddress) (h : pool.HandedOut owned) :
    (zeroFrame id frame pool).state.HandedOut owned := by
  refine handedOut_onMemory (fun memory => ?_) h
  rw [Action.run_attempt, Memory.zeroFrame]
  cases memory.locate frame with
  | ok word => exact Array.size_setIfInBounds
  | error assertion => rfl

theorem handedOut_answer {α β : Type} {x : Action FramePool α} (f : α → β)
    (h : (x pool).state.HandedOut owned) :
    ((x >>= fun a => pure (f a)) pool).state.HandedOut owned := by
  rw [Action.state_bind]
  cases (x pool).result with
  | ok a => exact h
  | error reason => exact h

end FramePool

/-- The frames that a caller holds after a request was answered. -/
def Holdings.after (held : Holdings) : Request → Except Stop Answer → Holdings
  | .pool id .allocate, .ok (.frame (some frame)) => (id, frame) :: held
  | .pool id (.release frame), .ok _ => held.erase (id, frame)
  | _, _ => held

namespace Holdings

variable {held : Holdings} {id : PoolId} {frame : PhysicalAddress}

theorem on_cons_self (held : Holdings) (id : PoolId) (frame : PhysicalAddress) :
    on ((id, frame) :: held) id = frame :: held.on id := by
  simp [on]

theorem on_cons_of_ne (held : Holdings) {other : PoolId} (h : other ≠ id)
    (frame : PhysicalAddress) :
    on ((id, frame) :: held) other = held.on other := by
  simp [on, Ne.symm h]

theorem on_perm_erase (h : (id, frame) ∈ held) :
    (held.on id).Perm (frame :: on (held.erase (id, frame)) id) := by
  have hperm := ((List.perm_cons_erase h).filter fun item => item.1 = id).map Prod.snd
  exact hperm.trans (List.Perm.of_eq (on_cons_self (held.erase (id, frame)) id frame))

theorem on_perm_erase_of_ne (h : (id, frame) ∈ held) {other : PoolId} (hother : other ≠ id) :
    (held.on other).Perm (on (held.erase (id, frame)) other) := by
  have hperm := ((List.perm_cons_erase h).filter fun item => item.1 = other).map Prod.snd
  exact hperm.trans (List.Perm.of_eq (on_cons_of_ne (held.erase (id, frame)) hother frame))

end Holdings

namespace Session

variable {n : Nat} {α β : Type}

theorem keeps_lift_violation (result : Except Violation α) :
    Keeps (liftM result : Action (Session n) α) :=
  fun _ _ _ h => h

theorem balances_return {s : Session n} {loose : List PageTable} {held : Holdings}
    {x : Action (Session n) α} (f : α → β) (hx : Balances (x s).state loose held) :
    Balances ((x >>= fun a => pure (f a)) s).state loose held := by
  rw [Action.state_bind]
  cases (x s).result with
  | ok a => exact hx
  | error reason => exact hx

theorem keeps_writeTo (pool : PoolId) (address : PhysicalAddress) (bytes : List UInt8) :
    Keeps (writeTo pool address bytes : Action (Session n) Answer) := by
  apply keeps_return
  apply keeps_onPool
  intro other owned h
  exact FramePool.handedOut_write address bytes h

theorem keeps_readFrom (pool : PoolId) (address : PhysicalAddress) (count : Nat) :
    Keeps (readFrom pool address count : Action (Session n) Answer) := by
  apply keeps_named_bind
  intro pool s loose held _ h
  exact balances_return _ h

theorem keeps_locate (table : PageTable) (page : PageNumber) (offset : UInt64) :
    Keeps (locate table page offset : Action (Session n) PhysicalAddress) := by
  rw [locate]
  cases table.find? page with
  | some entry => exact keeps_lift_violation _
  | none => exact keeps_stop _

theorem keeps_reach (space : AddressSpace) (address : UInt64) :
    Keeps (reach space address : Action (Session n) PhysicalAddress) := by
  apply keeps_bind (keeps_lift_violation _)
  intro address
  cases space.physical? address with
  | some address => exact keeps_pure _
  | none => exact keeps_stop _

theorem keeps_answerPool (id : PoolId) {request : PoolRequest} (hallocate : request ≠ .allocate)
    (hrelease : ∀ frame, request ≠ .release frame) :
    Keeps (onPool id (request.answer id) : Action (Session n) Answer) := by
  apply keeps_onPool
  intro pool owned h
  cases request with
  | allocate => exact absurd rfl hallocate
  | release frame => exact absurd rfl (hrelease frame)
  | zero frame =>
      rw [PoolRequest.answer]
      cases haligned : frame.isPageAligned with
      | false => exact h
      | true => exact FramePool.handedOut_answer _ (FramePool.handedOut_zeroFrame id frame h)
  | fill address byte =>
      exact FramePool.handedOut_answer _ (FramePool.handedOut_write address _ h)
  | write address bytes =>
      exact FramePool.handedOut_answer _ (FramePool.handedOut_write address bytes h)
  | read address count =>
      simp only [PoolRequest.answer, Action.state_bind, Action.run_current,
        Action.run_lift_violation]
      cases pool.memory.read address count <;> exact h
  | scan address =>
      simp only [PoolRequest.answer, Action.state_bind, Action.run_current,
        Action.run_lift_violation]
      cases pool.memory.nonZero address <;> exact h
  | size => exact h

theorem keeps_answerTable (slot : SlotId) (request : TableRequest) :
    Keeps (answerTable slot request : Action (Session n) Answer) := by
  cases request with
  | new id =>
      apply keeps_named_bind
      intro pool s loose held hpool h
      have hid : id < s.pools.size := (Array.getElem?_eq_some_iff.mp hpool).1
      exact balances_return _ (balances_placeTable slot (h.cons_empty hid))
  | ensure first =>
      apply keeps_return
      exact keeps_onTable slot (PageTable.conserves_ensureBlock first)
  | create page dirty =>
      apply keeps_return
      exact keeps_onTable slot (PageTable.conserves_createEntry page dirty)
  | entry page => exact keeps_named_bind fun _ _ _ _ _ h => h
  | mapped => exact keeps_named_bind fun _ _ _ _ _ h => h
  | copy target =>
      apply keeps_named_bind
      intro table s loose held htable h
      have hlive := mem_liveTables_of_table htable
      apply balances_copy h hlive
      · exact PageTable.copies_copy (h.wellFormed table (List.mem_append_right _ hlive))
      · intro copied t ht
        exact balances_return _ (balances_placeTable target ht)
  | destroy =>
      apply keeps_return
      exact keeps_onTable slot PageTable.conserves_destroy
  | drop =>
      intro s loose held h
      have hdestroyed := keeps_onTable slot PageTable.conserves_destroy s loose held h
      rw [answerTable, Action.state_bind]
      cases (onTable slot PageTable.destroy s).result with
      | ok _ => exact balances_eraseTable hdestroyed fun table => frames_of_destroyed_table h
      | error _ => exact hdestroyed
  | poke page offset bytes =>
      apply keeps_named_bind
      intro table s loose held _ h
      have hkeeps := keeps_bind (keeps_locate (n := n) table page offset) fun address =>
        keeps_writeTo table.pool address bytes
      exact hkeeps s loose held h
  | peek page offset count =>
      apply keeps_named_bind
      intro table s loose held _ h
      have hkeeps := keeps_bind (keeps_locate (n := n) table page offset) fun address =>
        keeps_readFrom table.pool address count
      exact hkeeps s loose held h

theorem keeps_eraseSpace (slot : SlotId) {x : Action (AddressSpace × FramePool) Unit}
    (hx : ∀ t, (x t).state = (AddressSpace.discard t).state) :
    Keeps (do
      onSpace slot x
      Action.update fun s : Session n => { s with spaces := s.spaces.erase slot }
      return Answer.nothing) := by
  intro s loose held h
  have hconserves :
      ∀ t, PageTable.Conserves (AddressSpace.part t) (AddressSpace.part (x t).state) :=
    fun t => hx t ▸ AddressSpace.conserves_discard t
  have hdestroyed := keeps_onSpace slot hconserves s loose held h
  rw [Action.state_bind]
  cases (onSpace slot x s).result with
  | ok _ => exact balances_eraseSpace hdestroyed fun space => frames_of_destroyed_space h hx
  | error _ => exact hdestroyed

theorem keeps_answerSpace (slot : SlotId) (request : SpaceRequest) :
    Keeps (answerSpace slot request : Action (Session n) Answer) := by
  cases request with
  | new id =>
      apply keeps_named_bind
      intro pool s loose held hpool h
      have hid : id < s.pools.size := (Array.getElem?_eq_some_iff.mp hpool).1
      rw [Action.bind_of_ok (AddressSpace.create_eq id s), Outcome.state_after]
      exact balances_return _ (balances_placeSpace slot (h.cons_empty hid))
  | define address length permissions =>
      apply keeps_return
      exact keeps_onSpace slot (AddressSpace.conserves_first
        (AddressSpace.blind_defineRegion address length permissions))
  | stack =>
      apply keeps_return
      exact keeps_onSpace slot (AddressSpace.conserves_first AddressSpace.blind_defineStack)
  | beginLoad =>
      apply keeps_return
      exact keeps_onSpace slot (AddressSpace.conserves_first AddressSpace.blind_beginLoad)
  | endLoad id =>
      apply keeps_named_bind
      intro processor s loose held _ h
      have hload := keeps_onLoad slot (AddressSpace.table_endLoad processor)
      exact keeps_return (fun _ => Answer.done) hload s loose held h
  | info => exact keeps_named_bind fun _ _ _ _ _ h => h
  | physical addresses => exact keeps_named_bind fun _ _ _ _ _ h => h
  | poke address bytes =>
      apply keeps_named_bind
      intro space s loose held _ h
      have hkeeps := keeps_bind (keeps_reach (n := n) space address) fun physical =>
        keeps_writeTo space.table.pool physical bytes
      exact hkeeps s loose held h
  | peek address count =>
      apply keeps_named_bind
      intro space s loose held _ h
      have hkeeps := keeps_bind (keeps_reach (n := n) space address) fun physical =>
        keeps_readFrom space.table.pool physical count
      exact hkeeps s loose held h
  | copy target =>
      apply keeps_named_bind
      intro space s loose held hspace h
      have hlive := mem_liveTables_of_space hspace
      apply balances_copy h hlive
      · exact AddressSpace.copies_copy (h.wellFormed _ (List.mem_append_right _ hlive))
      · intro copied t ht
        exact balances_return _ (balances_placeSpace target ht)
  | sameRegions other =>
      apply keeps_named_bind
      intro space s loose held _ h
      exact keeps_named_bind (fun _ _ _ _ _ h => h) s loose held h
  | destroy => exact keeps_eraseSpace slot fun _ => rfl
  | drop => exact keeps_eraseSpace slot fun _ => rfl

theorem keeps_answerProcessor (processor : Processor n) (request : ProcessorRequest) :
    Keeps (answerProcessor processor request : Action (Session n) Answer) := by
  cases request with
  | fault slot access word =>
      apply keeps_return
      exact keeps_onProcess slot (Context.conserving_handleFault processor access word)
  | rawFault slot code word =>
      apply keeps_return
      exact keeps_onProcess slot (Context.conserving_handleRawFault processor code word)
  | activate slot =>
      apply keeps_return
      exact keeps_onProcess slot (Context.conserving_activate processor)
  | deactivate slot =>
      apply keeps_return
      exact keeps_onProcess slot (Context.conserving_activate processor)
  | invalidate =>
      apply keeps_return
      exact keeps_onMachines _
  | install page frame flags =>
      apply keeps_bind (keeps_lift_violation _)
      intro mapping
      exact keeps_return _ (keeps_onMachines _)
  | shootdown address =>
      apply keeps_bind (keeps_lift_violation _)
      intro page
      exact keeps_return _ (keeps_onMachines _)
  | machines => exact keeps_pure _
  | guard =>
      apply keeps_bind (keeps_onMachines _)
      intro guard
      exact fun _ _ _ h => h

end Session

end DemandPaging
