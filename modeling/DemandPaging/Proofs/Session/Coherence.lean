import DemandPaging.Proofs.Coherence
import DemandPaging.Proofs.Session.Locality
import DemandPaging.Proofs.Session.Reachable
import DemandPaging.Proofs.Touch

namespace DemandPaging

namespace Request

/-- The slot whose space is gone, or is another one, after a request. -/
def ending? : Request → Option SlotId
  | .space slot (.new _) | .space slot .destroy | .space slot .drop => some slot
  | .space _ (.copy target) => some target
  | _ => none

def declaring? : Request → Option SlotId
  | .space slot (.define _ _ _) | .space slot .stack => some slot
  | _ => none

def activating? : Request → Option SlotId
  | .processor _ (.activate slot) => some slot
  | _ => none

/-- What a request has done in which slot, if it did not stop. -/
def done? (request : Request) (of : Request → Option SlotId) (result : Except Stop Answer) :
    Option SlotId :=
  if result.isOk then of request else none

theorem done?_ne_of_ne {request : Request} {of : Request → Option SlotId} {slot : SlotId}
    (h : of request ≠ some slot) (result : Except Stop Answer) :
    request.done? of result ≠ some slot := by
  rw [done?]
  split
  · exact h
  · simp

theorem done?_activating_ne {request : Request} {slot : SlotId}
    (h : request.activating? = none) (result : Except Stop Answer) :
    request.done? activating? result ≠ some slot :=
  done?_ne_of_ne (by simp [h]) result

end Request

namespace Session

/-- What a request does to the space in a slot and to the cache. Either the cache is emptied, or it
is as coherent with the space as before, unless a region was declared. -/
def KeepsCoherent (request : Request) (s : Session 1) (slot : SlotId) (space : AddressSpace) :
    Prop :=
  ∃ next, (answer request s).state.spaces.get? slot = some next ∧
    ((∀ mapping, some mapping ∉ (answer request s).state.machine.slots) ∨
      (answer request s).state.machine.invalidations = s.machine.invalidations ∧
        request.done? Request.activating? (answer request s).result ≠ some slot ∧
        ∀ strict, space.Coherent s.machine strict →
          next.Coherent (answer request s).state.machine
            (strict ∧ request.done? Request.declaring? (answer request s).result ≠ some slot))

theorem get_put_zero (machines : Machines 1) (id : Fin 1) (machine : Machine) :
    (machines.put id machine).get 0 = machine := by
  rw [Subsingleton.elim id 0]
  exact Machines.get_put_self machines 0 machine

theorem keepsCoherent_of_emptied {s : Session 1} {slot : SlotId} {space next : AddressSpace}
    {request : Request} (hnext : (answer request s).state.spaces.get? slot = some next)
    {id : Fin 1} {machine : Machine}
    (hmachines : (answer request s).state.machines = s.machines.put id machine.emptied) :
    KeepsCoherent request s slot space := by
  refine ⟨next, hnext, .inl fun mapping => ?_⟩
  rw [Session.machine, hmachines, get_put_zero]
  exact machine.not_mem_slots_emptied mapping

section Steps

variable {s : Session 1} {slot : SlotId} {space : AddressSpace} {request : Request}
  (hspace : s.spaces.get? slot = some space)

include hspace

theorem keepsCoherent_of_same
    (hslot : (answer request s).state.spaces.get? slot = s.spaces.get? slot)
    (hslots : (answer request s).state.machine.slots = s.machine.slots)
    (hcount : (answer request s).state.machine.invalidations = s.machine.invalidations)
    (hactivating : request.done? Request.activating? (answer request s).result ≠ some slot) :
    KeepsCoherent request s slot space :=
  ⟨space, hslot.trans hspace, .inr ⟨hcount, hactivating, fun _ h =>
    (h.of_slots_eq hslots).weaken And.left⟩⟩

theorem keepsCoherent_of_view
    (hview : view slot (answer request s).state = view slot s)
    (hactivating : request.done? Request.activating? (answer request s).result ≠ some slot) :
    KeepsCoherent request s slot space := by
  have hmachine : (answer request s).state.machine = s.machine :=
    congrArg (Vector.get · 0) (congrArg Prod.fst hview)
  exact keepsCoherent_of_same hspace (congrArg Prod.snd hview) (congrArg Machine.slots hmachine)
    (congrArg Machine.invalidations hmachine) hactivating

theorem keepsCoherent_pool (id : PoolId) (request : PoolRequest) :
    KeepsCoherent (.pool id request) s slot space :=
  keepsCoherent_of_view hspace (leaves_view (leaves_onPool id _) slot s)
    (Request.done?_activating_ne rfl _)

theorem keepsCoherent_table (other : SlotId) (request : TableRequest) :
    KeepsCoherent (.table other request) s slot space :=
  keepsCoherent_of_view hspace (leaves_view (leaves_answerTable other request) slot s)
    (Request.done?_activating_ne rfl _)

theorem keepsCoherent_endLoad (other : SlotId) (id : Nat) :
    KeepsCoherent (.space other (.endLoad id)) s slot space := by
  cases hprocessor : s.processors[id]? with
  | none =>
      refine keepsCoherent_of_view hspace ?_ (Request.done?_activating_ne rfl _)
      rw [answer, answerSpace, named_bind, hprocessor]
  | some processor =>
      have hstate : (answer (.space other (.endLoad id)) s).state =
          (onLoad other (AddressSpace.endLoad processor) s).state := by
        rw [answer, answerSpace, named_bind, hprocessor]
        exact Action.state_bind_pure _ _ s
      cases hother : s.spaces.get? other with
      | none =>
          refine keepsCoherent_of_view hspace ?_ (Request.done?_activating_ne rfl _)
          rw [hstate, onLoad_of_none hother]
      | some found =>
          rw [onLoad_of_some hother] at hstate
          cases hloading : found.loading with
          | true =>
              obtain ⟨events, hrun⟩ :=
                AddressSpace.endLoad_of_loading (Subsingleton.elim _ _) hloading s.machines
              rw [hrun] at hstate
              have hnext : ∃ next, (answer (.space other (.endLoad id)) s).state.spaces.get? slot =
                  some next := by
                rw [hstate, Slots.get?_put]
                split
                · exact ⟨found.closed, rfl⟩
                · exact ⟨space, hspace⟩
              obtain ⟨kept, hkept⟩ := hnext
              exact keepsCoherent_of_emptied hkept (congrArg Session.machines hstate)
          | false =>
              rw [AddressSpace.endLoad_of_not_loading processor hloading] at hstate
              refine keepsCoherent_of_view hspace ?_ (Request.done?_activating_ne rfl _)
              rw [hstate]
              exact congrArg (fun spaces => (s.machines, spaces.get? slot)) (Slots.put_self hother)

theorem keepsCoherent_onSpace {α : Type} {x : Action AddressSpace α} {f : α → Answer}
    {pool : FramePool} (hpool : s.pools[space.table.pool]? = some pool)
    (hanswer : answer request s = (onSpace slot (Action.first x) >>= fun a => pure (f a)) s)
    (hactivating : ∀ result, request.done? Request.activating? result ≠ some slot)
    (hcoherent : ∀ strict, space.Coherent s.machine strict →
      (x space).state.Coherent s.machine
        (strict ∧ request.done? Request.declaring? (answer request s).result ≠ some slot)) :
    KeepsCoherent request s slot space := by
  have hfound : space? slot s = some (space, pool) := space?_eq_some_iff.mpr ⟨hspace, hpool⟩
  have hstate : (answer request s).state = putSpace slot ((x space).state, pool) s := by
    rw [hanswer, Action.state_bind_pure, onSpace_of_some hfound, Action.run_first]
  refine ⟨(x space).state, ?_, .inr ⟨?_, hactivating _, fun strict h => ?_⟩⟩
  · rw [hstate]
    exact (s.spaces.get?_put slot slot _).trans (if_pos rfl)
  · rw [hstate]
    rfl
  · rw [hstate]
    exact hcoherent strict h

theorem keepsCoherent_of_declares {α : Type} {x : Action AddressSpace α} {f : α → Answer}
    {pool : FramePool} (hpool : s.pools[space.table.pool]? = some pool)
    (hanswer : answer request s = (onSpace slot (Action.first x) >>= fun a => pure (f a)) s)
    (hactivating : ∀ result, request.done? Request.activating? result ≠ some slot)
    (hdeclaring : request.declaring? = some slot) (hx : AddressSpace.Declares x) :
    KeepsCoherent request s slot space := by
  refine keepsCoherent_onSpace hspace hpool hanswer hactivating fun strict h => ?_
  rcases hx space with ⟨a, regions, events, hrun⟩ | ⟨reason, events, hrun⟩
  · have hdone : request.done? Request.declaring? (answer request s).result = some slot := by
      have hfound : space? slot s = some (space, pool) := space?_eq_some_iff.mpr ⟨hspace, hpool⟩
      rw [hanswer, Action.result_bind, onSpace_of_some hfound, Action.run_first, hrun]
      exact hdeclaring
    rw [hrun]
    exact (h.declare regions).weaken fun hstrict => hstrict.2 hdone
  · rw [hrun]
    exact h.weaken And.left

theorem keepsCoherent_beginLoad {pool : FramePool}
    (hpool : s.pools[space.table.pool]? = some pool) :
    KeepsCoherent (.space slot .beginLoad) s slot space := by
  refine keepsCoherent_onSpace hspace hpool rfl (Request.done?_activating_ne rfl) fun strict h => ?_
  cases hloading : space.loading with
  | true =>
      rw [AddressSpace.beginLoad_of_loading hloading]
      exact h.weaken And.left
  | false =>
      rw [AddressSpace.beginLoad_of_not_loading hloading]
      exact h.widen.weaken And.left

end Steps

section Spaces

variable {s : Session 1} {slot : SlotId} {space : AddressSpace} {held : Holdings}
  (h : Balances s [] held) (hspace : s.spaces.get? slot = some space)

include h hspace

theorem keepsCoherent_copy (other : SlotId)
    (hstays : (Request.space other (.copy slot)).done? Request.ending?
      (answer (.space other (.copy slot)) s).result ≠ some slot) :
    KeepsCoherent (.space other (.copy slot)) s slot space := by
  refine keepsCoherent_of_view hspace ?_ (Request.done?_activating_ne rfl _)
  rw [answer, answerSpace, named_bind] at hstays ⊢
  cases hsource : s.spaces.get? other with
  | none => rfl
  | some source =>
      rw [hsource] at hstays
      have hlive := mem_liveTables_of_space hsource
      have hcopies := AddressSpace.copies_copy (h.wellFormed _ hlive)
      obtain ⟨pool, next, events, -, -, ⟨copy, hrun, hnext⟩ | ⟨hrun, -, -⟩⟩ :=
        onPool_of_copies h hlive hcopies
      · refine absurd ?_ hstays
        simp only
        rw [Action.bind_of_ok hrun, Outcome.result_after, Action.result_bind,
          result_placeSpace slot hnext]
        rfl
      · simp only
        rw [Action.bind_of_error hrun]
        rfl

theorem keepsCoherent_new (id : PoolId)
    (hstays : (Request.space slot (.new id)).done? Request.ending?
      (answer (.space slot (.new id)) s).result ≠ some slot) :
    KeepsCoherent (.space slot (.new id)) s slot space := by
  refine keepsCoherent_of_view hspace ?_ (Request.done?_activating_ne rfl _)
  rw [answer, answerSpace, named_bind] at hstays ⊢
  cases hpool : s.pools[id]? with
  | none => rfl
  | some pool =>
      rw [hpool] at hstays
      have hid : id < s.pools.size := (Array.getElem?_eq_some_iff.mp hpool).1
      have hmade : Balances s [PageTable.empty id] held := h.cons_empty hid
      refine absurd ?_ hstays
      simp only
      rw [Action.bind_of_ok (AddressSpace.create_eq id s), Outcome.result_after,
        Action.result_bind, result_placeSpace slot hmade]
      rfl

theorem keepsCoherent_erase {request : SpaceRequest}
    {x : Action (AddressSpace × FramePool) Unit}
    (hx : ∀ t owned, PageTable.Backed owned (AddressSpace.part t) → (x t).result = .ok ())
    (hanswer : answer (.space slot request) s = (onSpace slot x >>= fun _ => do
      Action.update fun s : Session 1 => { s with spaces := s.spaces.erase slot }
      return Answer.nothing) s)
    (hending : (Request.space slot request).ending? = some slot)
    (hstays : (Request.space slot request).done? Request.ending?
      (answer (.space slot request) s).result ≠ some slot) :
    KeepsCoherent (.space slot request) s slot space := by
  obtain ⟨pool, hfound⟩ := h.exists_space? hspace
  obtain ⟨owned, hbacked⟩ := h.exists_backed hfound
  refine absurd ?_ hstays
  have hok : (onSpace slot x s).result = .ok () := by
    rw [onSpace_of_some hfound]
    exact hx _ owned hbacked
  rw [hanswer, Action.result_bind, hok]
  exact hending

end Spaces

theorem keepsCoherent_space {s : Session 1} {slot other : SlotId} {space : AddressSpace}
    {held : Holdings} (h : Balances s [] held) (hspace : s.spaces.get? slot = some space)
    (request : SpaceRequest)
    (hstays : (Request.space other request).done? Request.ending?
      (answer (.space other request) s).result ≠ some slot) :
    KeepsCoherent (.space other request) s slot space := by
  obtain ⟨pool, hfound⟩ := h.exists_space? hspace
  have hpool := (space?_eq_some_iff.mp hfound).2
  by_cases hchanged : request.changed? other = some slot
  · cases request with
    | new id =>
        obtain rfl := Option.some.inj hchanged
        exact keepsCoherent_new h hspace id hstays
    | define address length permissions =>
        obtain rfl := Option.some.inj hchanged
        exact keepsCoherent_of_declares hspace hpool rfl (Request.done?_activating_ne rfl) rfl
          (AddressSpace.declares_defineRegion address length permissions)
    | stack =>
        obtain rfl := Option.some.inj hchanged
        exact keepsCoherent_of_declares hspace hpool rfl (Request.done?_activating_ne rfl) rfl
          AddressSpace.declares_defineStack
    | beginLoad =>
        obtain rfl := Option.some.inj hchanged
        exact keepsCoherent_beginLoad hspace hpool
    | endLoad id => exact keepsCoherent_endLoad hspace other id
    | copy target =>
        obtain rfl := Option.some.inj hchanged
        exact keepsCoherent_copy h hspace other hstays
    | destroy =>
        obtain rfl := Option.some.inj hchanged
        exact keepsCoherent_erase h hspace (fun _ _ => AddressSpace.result_destroy) rfl rfl hstays
    | drop =>
        obtain rfl := Option.some.inj hchanged
        exact keepsCoherent_erase h hspace (fun _ _ => AddressSpace.result_discard) rfl rfl hstays
    | _ => contradiction
  · by_cases hload : ∃ id, request = .endLoad id
    · obtain ⟨id, rfl⟩ := hload
      exact keepsCoherent_endLoad hspace other id
    · exact keepsCoherent_of_view hspace
        (leaves_answerSpace hchanged (fun id hid => hload ⟨id, hid⟩) s)
        (Request.done?_activating_ne rfl _)

section Processors

variable {s : Session 1} {slot other : SlotId} {space : AddressSpace} {held : Holdings}
  (h : Balances s [] held) (hspace : s.spaces.get? slot = some space) {request : Request}

include h hspace

theorem keepsCoherent_of_serves {x : Action (Context × Machines 1) Unit} {id : Fin 1}
    (hx : ∀ pool owned, PageTable.Backed owned (space.table, pool) →
      ∃ t, (x (some (space, pool), s.machines)).state.1 = some t ∧
        space.Serves t.1 (s.machines.get id)
          ((x (some (space, pool), s.machines)).state.2.get id))
    (hstate : (answer request s).state = (onProcess slot x s).state)
    (hactivating : ∀ result, request.done? Request.activating? result ≠ some slot) :
    KeepsCoherent request s slot space := by
  obtain rfl : id = 0 := Subsingleton.elim _ _
  obtain ⟨pool, hfound⟩ := h.exists_space? hspace
  obtain ⟨owned, hbacked⟩ := h.exists_backed hfound
  obtain ⟨t, ht, hserves⟩ := hx pool owned hbacked
  change space.Serves t.1 s.machine _ at hserves
  rw [onProcess, Action.run_on, hfound, ht] at hstate
  have hmachine : (answer request s).state.machine =
      (x (some (space, pool), s.machines)).state.2.get 0 := by
    rw [hstate]
    rfl
  rw [← hmachine] at hserves
  refine ⟨t.1, ?_, .inr ⟨?_, hactivating _, fun strict hcoherent => ?_⟩⟩
  · rw [hstate]
    exact (s.spaces.get?_put slot slot t.1).trans (if_pos rfl)
  · rcases hserves.cache with heq | ⟨mapping, heq, -⟩
    · rw [heq]
    · rw [heq, Machine.invalidations_place]
  · exact (hcoherent.serve hserves).weaken And.left

omit h in
theorem keepsCoherent_of_absent {x : Action (Context × Machines 1) Unit}
    (hx : ∃ reason events,
      x (none, s.machines) = ⟨.error (.refused reason), (none, s.machines), events⟩)
    (habsent : s.spaces.get? other = none)
    (hstate : (answer request s).state = (onProcess other x s).state)
    (hactivating : ∀ result, request.done? Request.activating? result ≠ some slot) :
    KeepsCoherent request s slot space := by
  obtain ⟨reason, events, hrefused⟩ := hx
  refine keepsCoherent_of_view hspace ?_ (hactivating _)
  rw [hstate, onProcess_of_none (space?_eq_none_of_get? habsent) hrefused]

theorem keepsCoherent_activate (processor : Processor 1)
    (hstate : (answer request s).state = (onProcess other (Context.activate processor) s).state)
    (hactivating : other ≠ slot → ∀ result, request.done? Request.activating? result ≠ some slot) :
    KeepsCoherent request s slot space := by
  rw [onProcess, Action.run_on] at hstate
  cases hother : space? other s with
  | none =>
      have hne : other ≠ slot := by
        rintro rfl
        obtain ⟨pool, hfound⟩ := h.exists_space? hspace
        rw [hother] at hfound
        contradiction
      rw [hother] at hstate
      refine keepsCoherent_of_view hspace ?_ (hactivating hne _)
      rw [hstate]
      rfl
  | some t =>
      have hsame : processor.cache = processor.interrupts := Subsingleton.elim _ _
      obtain ⟨events, hrun⟩ := Processor.invalidate_of_same hsame s.machines
      have hactivate : Context.activate processor (some t, s.machines) =
          ⟨.ok (), (some t, s.machines.put processor.cache
            (s.machines.get processor.cache).emptied), events⟩ := by
        simp [Context.activate, Action.ifPresent, hrun]
      rw [hother, hactivate] at hstate
      have hslot : (answer request s).state.spaces.get? slot = some space := by
        rw [hstate]
        have hspaces := Slots.put_self (space?_eq_some_iff.mp hother).1
        exact (congrArg (·.get? slot) hspaces).trans hspace
      exact keepsCoherent_of_emptied hslot (congrArg Session.machines hstate)

end Processors

theorem keepsCoherent_of_level {s : Session 1} {slot : SlotId} {space : AddressSpace}
    {request : Request} (hspace : s.spaces.get? slot = some space)
    (hslot : (answer request s).state.spaces = s.spaces) {id : Fin 1} {level : InterruptLevel}
    (hmachines : (answer request s).state.machines =
      s.machines.put id ((s.machines.get id).withLevel level))
    (hactivating : request.activating? = none) : KeepsCoherent request s slot space := by
  have hmachine : (answer request s).state.machine = s.machine.withLevel level := by
    rw [Session.machine, hmachines, get_put_zero, Subsingleton.elim id 0]
    rfl
  refine keepsCoherent_of_same hspace (congrArg (·.get? slot) hslot) ?_ ?_
    (Request.done?_activating_ne hactivating _)
  · exact (congrArg Machine.slots hmachine).trans rfl
  · exact (congrArg Machine.invalidations hmachine).trans rfl

section Processor

variable {s : Session 1} {slot other : SlotId} {space : AddressSpace} {held : Holdings}
  {processor : Processor 1} {id : Nat}

theorem answer_of_processor (hprocessor : s.processors[id]? = some processor)
    (request : ProcessorRequest) :
    answer (.processor id request) s = answerProcessor processor request s := by
  rw [answer, named_bind, hprocessor]

theorem keepsCoherent_of_noProcessor (hspace : s.spaces.get? slot = some space)
    (hprocessor : s.processors[id]? = none) (request : ProcessorRequest) :
    KeepsCoherent (.processor id request) s slot space := by
  have hanswer : answer (.processor id request) s = ⟨.error .absent, s, []⟩ := by
    rw [answer, named_bind, hprocessor]
  refine keepsCoherent_of_view hspace (by rw [hanswer]) ?_
  rw [hanswer]
  simp [Request.done?, Except.isOk, Except.toBool]

theorem keepsCoherent_fault (h : Balances s [] held) (hspace : s.spaces.get? slot = some space)
    (hprocessor : s.processors[id]? = some processor)
    (hother : other = slot ∨ s.spaces.get? other = none) (access : Access) (word : UInt64) :
    KeepsCoherent (.processor id (.fault other access word)) s slot space := by
  have hsame : processor.cache = processor.interrupts := Subsingleton.elim _ _
  have hstate : (answer (.processor id (.fault other access word)) s).state =
      (onProcess other (Context.handleFault processor access word) s).state := by
    rw [answer_of_processor hprocessor]
    exact Action.state_bind_pure _ _ s
  rcases hother with rfl | habsent
  · exact keepsCoherent_of_serves h hspace
      (fun _ _ hbacked => Context.serves_handleFault hsame hbacked s.machines access word) hstate
      (Request.done?_activating_ne rfl)
  · exact keepsCoherent_of_absent hspace
      (Context.handleFault_of_absent processor s.machines access word) habsent hstate
      (Request.done?_activating_ne rfl)

theorem keepsCoherent_rawFault (h : Balances s [] held) (hspace : s.spaces.get? slot = some space)
    (hprocessor : s.processors[id]? = some processor)
    (hother : other = slot ∨ s.spaces.get? other = none) (code : UInt32) (word : UInt64) :
    KeepsCoherent (.processor id (.rawFault other code word)) s slot space := by
  have hsame : processor.cache = processor.interrupts := Subsingleton.elim _ _
  have hstate : (answer (.processor id (.rawFault other code word)) s).state =
      (onProcess other (Context.handleRawFault processor code word) s).state := by
    rw [answer_of_processor hprocessor]
    exact Action.state_bind_pure _ _ s
  rcases hother with rfl | habsent
  · exact keepsCoherent_of_serves h hspace
      (fun _ _ hbacked => Context.serves_handleRawFault hsame hbacked s.machines code word) hstate
      (Request.done?_activating_ne rfl)
  · exact keepsCoherent_of_absent hspace
      (Context.handleRawFault_of_absent processor s.machines code word) habsent hstate
      (Request.done?_activating_ne rfl)

theorem keepsCoherent_invalidate (hspace : s.spaces.get? slot = some space)
    (hprocessor : s.processors[id]? = some processor) :
    KeepsCoherent (.processor id .invalidate) s slot space := by
  obtain ⟨events, hrun⟩ :=
    Processor.invalidate_of_same (Subsingleton.elim processor.cache processor.interrupts) s.machines
  have hstate : (answer (.processor id .invalidate) s).state =
      (onMachines processor.invalidate s).state := by
    rw [answer_of_processor hprocessor]
    exact Action.state_bind_pure _ _ s
  rw [onMachines, Action.run_on, hrun] at hstate
  have hslot : (answer (.processor id .invalidate) s).state.spaces.get? slot = some space := by
    rw [hstate]
    exact hspace
  exact keepsCoherent_of_emptied hslot (congrArg Session.machines hstate)

theorem keepsCoherent_shootdown (hspace : s.spaces.get? slot = some space)
    (hprocessor : s.processors[id]? = some processor) (address : UInt64) :
    KeepsCoherent (.processor id (.shootdown address)) s slot space := by
  have hleaves : Action.Leaves (view slot) (answerProcessor processor (.shootdown address)) :=
    Action.leaves_bind (Action.leaves_lift _) fun _ => Action.leaves_return _ fun _ => rfl
  refine keepsCoherent_of_view hspace ?_ (Request.done?_activating_ne rfl _)
  rw [answer_of_processor hprocessor]
  exact hleaves s

theorem keepsCoherent_processor (h : Balances s [] held)
    (hspace : s.spaces.get? slot = some space) (id : Nat) (request : ProcessorRequest)
    (hinstall : ∀ page frame flags, request ≠ .install page frame flags)
    (hfault : ∀ other access word, request = .fault other access word →
      other = slot ∨ s.spaces.get? other = none)
    (hrawFault : ∀ other code word, request = .rawFault other code word →
      other = slot ∨ s.spaces.get? other = none) :
    KeepsCoherent (.processor id request) s slot space := by
  cases hprocessor : s.processors[id]? with
  | none => exact keepsCoherent_of_noProcessor hspace hprocessor request
  | some processor =>
      have hanswer := answer_of_processor hprocessor request
      cases request with
      | fault other access word =>
          exact keepsCoherent_fault h hspace hprocessor (hfault other access word rfl) access word
      | rawFault other code word =>
          exact keepsCoherent_rawFault h hspace hprocessor (hrawFault other code word rfl) code word
      | activate other =>
          have hstate := (congrArg Outcome.state hanswer).trans (Action.state_bind_pure _ _ s)
          refine keepsCoherent_activate h hspace processor hstate fun hne => ?_
          exact Request.done?_ne_of_ne fun heq => hne (Option.some.inj heq)
      | deactivate other =>
          have hstate := (congrArg Outcome.state hanswer).trans (Action.state_bind_pure _ _ s)
          exact keepsCoherent_activate h hspace processor hstate fun _ =>
            Request.done?_activating_ne rfl
      | invalidate => exact keepsCoherent_invalidate hspace hprocessor
      | install page frame flags => exact absurd rfl (hinstall page frame flags)
      | shootdown address => exact keepsCoherent_shootdown hspace hprocessor address
      | machines =>
          refine keepsCoherent_of_view hspace ?_ (Request.done?_activating_ne rfl _)
          rw [hanswer]
          rfl
      | guard =>
          have hstate := congrArg Outcome.state hanswer
          exact keepsCoherent_of_level hspace ((congrArg Session.spaces hstate).trans rfl)
            (congrArg Session.machines hstate) rfl

end Processor

theorem keepsCoherent_unguard {s : Session 1} {slot : SlotId} {space : AddressSpace}
    (hspace : s.spaces.get? slot = some space) (index : Nat) :
    KeepsCoherent (.unguard index) s slot space := by
  cases hguard : s.guards.get? index with
  | none =>
      refine keepsCoherent_of_view hspace ?_ (Request.done?_activating_ne rfl _)
      rw [answer, named_bind, hguard]
  | some guard =>
      have hanswer : answer (.unguard index) s = (do
          Action.update fun s => { s with guards := s.guards.erase index }
          onMachines guard.drop
          return Answer.nothing : Action (Session 1) Answer) s := by
        rw [answer, named_bind, hguard]
      have hstate := congrArg Outcome.state hanswer
      exact keepsCoherent_of_level hspace ((congrArg Session.spaces hstate).trans rfl)
        (congrArg Session.machines hstate) rfl

end Session

end DemandPaging
