import DemandPaging.Proofs.Declarations
import DemandPaging.Proofs.Session.Fork
import DemandPaging.Proofs.Session.Locality
import DemandPaging.Proofs.Touch

/-!
What requests do to address spaces. A request concerns the space in at most one slot, and asks for
one thing there: it is granted and done, or it is refused and next to nothing changes. Invariants of
spaces over whole runs are read off this one case distinction.
-/

namespace DemandPaging

inductive Deed
  | make (pool : PoolId)
  | copy (source : SlotId)
  | declare (declaration : Declaration)
  | beginLoad
  | endLoad
  | touch (page : PageNumber)
  | giveUp
  deriving DecidableEq, Repr

namespace Request

/-- The slot whose space a request concerns, and what is asked of that space. -/
def deed? : Request → Option (SlotId × Deed)
  | .space slot (.new id) => some (slot, .make id)
  | .space slot (.copy target) => some (target, .copy slot)
  | .space slot (.define address length permissions) =>
      some (slot, .declare ⟨address, length, permissions⟩)
  | .space slot .stack => some (slot, .declare .stack)
  | .space slot .beginLoad => some (slot, .beginLoad)
  | .space slot (.endLoad _) => some (slot, .endLoad)
  | .space slot .destroy | .space slot .drop => some (slot, .giveUp)
  | .processor _ (.fault slot _ address) | .processor _ (.rawFault slot _ address) =>
      some (slot, .touch ⟨address / Layout.pageBytes⟩)
  | _ => none

/-- If a request makes use of a processor, that masks the interrupts of the machine whose cache it
writes. -/
def MasksOwn {n : Nat} (s : Session n) : Request → Prop
  | .processor id _ | .space _ (.endLoad id) =>
      ∀ processor, s.processors[id]? = some processor → processor.cache = processor.interrupts
  | _ => True

theorem masksOwn_of_single (s : Session 1) (request : Request) : request.MasksOwn s := by
  have hsame : ∀ processor : Processor 1, processor.cache = processor.interrupts :=
    fun _ => Subsingleton.elim _ _
  cases request with
  | processor id request => exact fun processor _ => hsame processor
  | space slot request =>
      cases request with
      | endLoad id => exact fun processor _ => hsame processor
      | _ => trivial
  | _ => trivial

end Request

namespace Session

variable {n : Nat} {s t : Session n} {slot : SlotId} {deed : Deed}

/-- What has become of the space in a slot after something was done to it, from one state to the
next. -/
def Did (s t : Session n) (slot : SlotId) : Deed → Prop
  | .make pool => t.spaces.get? slot = some (.blank pool)
  | .copy source => ∃ space copy pool next, s.spaces.get? source = some space ∧
      t.spaces.get? slot = some copy ∧ space.IsFork copy pool next
  | .declare declaration => ∃ space region, s.spaces.get? slot = some space ∧
      declaration.region = .ok region ∧ t.spaces.get? slot = some (space.withRegion region)
  | .beginLoad => ∃ space, s.spaces.get? slot = some space ∧ space.loading = false ∧
      t.spaces.get? slot = some space.opened
  | .endLoad => ∃ space, s.spaces.get? slot = some space ∧ space.loading = true ∧
      t.spaces.get? slot = some space.closed
  | .touch page => ∃ before after address, space? slot s = some before ∧
      space? slot t = some after ∧ VirtualAddress.pageNumber address = page ∧
      AddressSpace.Touches page before after
  | .giveUp => t.spaces.get? slot = none

/-- What has become of a session after something was refused. A copy that is refused has taken
frames and given them back, and a fault that is refused may have made a block for its page. -/
def Declined (s t : Session n) (slot : SlotId) : Deed → Prop
  | .copy _ => t.spaces = s.spaces
  | .touch _ => t.pools = s.pools ∧ (t.spaces.get? slot = s.spaces.get? slot ∨
      ∃ space first, s.spaces.get? slot = some space ∧
        t.spaces.get? slot = some { space with table := space.table.withBlock first })
  | _ => t = s

/-- What a request has done to the space in a slot. Whatever is asked of a space, no assertion
fails. -/
inductive Effect (request : Request) (s : Session n) (slot : SlotId) : Prop
  | elsewhere (hdeed : ∀ deed, request.deed? ≠ some (slot, deed))
      (hsame : (answer request s).state.spaces.get? slot = s.spaces.get? slot)
  | declined (deed : Deed) (hdeed : request.deed? = some (slot, deed)) (reason : Stop)
      (hresult : (answer request s).result = .error reason)
      (hreason : ∀ assertion, reason ≠ .violated assertion)
      (hdeclined : Declined s (answer request s).state slot deed)
  | did (deed : Deed) (hdeed : request.deed? = some (slot, deed)) (a : Answer)
      (hresult : (answer request s).result = .ok a)
      (hdid : Did s (answer request s).state slot deed)

theorem exists_deed_of_changed? {request : SpaceRequest} {other : SlotId}
    (h : request.changed? other = some slot) :
    ∃ deed, (Request.space other request).deed? = some (slot, deed) := by
  cases request <;> cases h <;> exact ⟨_, rfl⟩

section Elsewhere

variable {other : SlotId}

theorem leaves_onProcess (hne : slot ≠ other) (x : Action (Context × Machines n) Unit) :
    Action.Leaves (fun s : Session n => s.spaces.get? slot) (onProcess other x) := by
  intro s
  rw [onProcess, Action.run_on]
  cases (x (space? other s, s.machines)).state.1 with
  | none => rfl
  | some t => exact (s.spaces.get?_put other slot t.1).trans (if_neg hne)

theorem leaves_activate (processor : Processor n) :
    Action.Leaves (fun s : Session n => s.spaces.get? slot)
      (onProcess other (Context.activate processor)) := by
  intro s
  rw [onProcess, Action.run_on]
  cases hother : space? other s with
  | none => rfl
  | some t => exact congrArg (·.get? slot) (Slots.put_self (space?_eq_some_iff.mp hother).1)

theorem leaves_of_deed?_ne {request : Request}
    (hdeed : ∀ deed, request.deed? ≠ some (slot, deed)) :
    Action.Leaves (fun s : Session n => s.spaces.get? slot) (answer request) := by
  have hview : ∀ {x : Action (Session n) Answer}, Action.Leaves (view slot) x →
      Action.Leaves (fun s : Session n => s.spaces.get? slot) x := fun h => h.of_part Prod.snd
  cases request with
  | pool id request => exact hview (leaves_view (leaves_onPool id _) slot)
  | machine id request =>
      intro s
      rw [answer]
      split <;> rfl
  | table other request => exact hview (leaves_view (leaves_answerTable other request) slot)
  | space other request =>
      have hchanged : request.changed? other ≠ some slot := by
        intro hchanged
        obtain ⟨deed, hsome⟩ := exists_deed_of_changed? hchanged
        exact hdeed deed hsome
      by_cases hload : ∃ id, request = .endLoad id
      · obtain ⟨id, rfl⟩ := hload
        have hne : slot ≠ other := fun heq => hchanged (congrArg some heq.symm)
        refine leaves_named_bind fun processor => ?_
        exact Action.leaves_return _ (Action.leaves_onSome _ fun t s =>
          (s.spaces.get?_put other slot t.1).trans (if_neg hne))
      · exact hview (leaves_answerSpace hchanged fun id hid => hload ⟨id, hid⟩)
  | processor id request =>
      refine leaves_named_bind fun processor => ?_
      cases request with
      | fault other access word =>
          have hne : slot ≠ other := fun heq => hdeed _ (by rw [heq]; rfl)
          exact Action.leaves_return _ (leaves_onProcess hne _)
      | rawFault other code word =>
          have hne : slot ≠ other := fun heq => hdeed _ (by rw [heq]; rfl)
          exact Action.leaves_return _ (leaves_onProcess hne _)
      | activate other => exact Action.leaves_return _ (leaves_activate processor)
      | deactivate other => exact Action.leaves_return _ (leaves_activate processor)
      | invalidate => exact Action.leaves_return _ fun _ => rfl
      | install page frame flags =>
          exact Action.leaves_bind (Action.leaves_lift _) fun _ =>
            Action.leaves_return _ fun _ => rfl
      | shootdown address =>
          exact Action.leaves_bind (Action.leaves_lift _) fun _ =>
            Action.leaves_return _ fun _ => rfl
      | machines => exact Action.leaves_pure _
      | guard => exact fun _ => rfl
  | unguard index => exact leaves_named_bind fun guard => fun _ => rfl

end Elsewhere

section Parts

theorem spaces_placeSpace (slot : SlotId) (space : AddressSpace) (s : Session n) :
    (placeSpace slot space s).state.spaces = s.spaces.put slot space := by
  rw [state_placeSpace]
  cases (s.spaces.get? slot).map AddressSpace.table with
  | none => rfl
  | some old => exact congrArg Prod.snd (leaves_giveUpTable old _)

theorem placed_of_balances {held : Holdings} {space : AddressSpace}
    (h : Balances s [space.table] held) (slot : SlotId) :
    ((placeSpace slot space >>= fun _ => pure Answer.done) s).result = .ok .done ∧
      ((placeSpace slot space >>= fun _ => pure Answer.done) s).state.spaces.get? slot =
        some space := by
  rw [Action.result_bind, result_placeSpace slot h, Action.state_bind_pure, spaces_placeSpace,
    Slots.get?_put, if_pos rfl]
  exact ⟨rfl, rfl⟩

end Parts

section Effects

variable {request : Request} (hdeed : request.deed? = some (slot, deed))

include hdeed

theorem effect_of_unchanged {reason : Stop} {events : List Event}
    (hanswer : answer request s = ⟨.error reason, s, events⟩)
    (hreason : ∀ assertion, reason ≠ .violated assertion) : Effect request s slot := by
  refine .declined deed hdeed reason (by rw [hanswer]) hreason ?_
  rw [hanswer]
  cases deed with
  | touch page => exact ⟨rfl, .inl rfl⟩
  | _ => rfl

theorem effect_onSpace {held : Holdings} (h : Balances s [] held) {α : Type}
    {x : Action (AddressSpace × FramePool) α} {f : α → Answer}
    (hanswer : answer request s = (onSpace slot x >>= fun a => pure (f a)) s)
    (hx : ∀ t, space? slot s = some t →
      (∃ a next events, x t = ⟨.ok a, next, events⟩ ∧ Did s (putSpace slot next s) slot deed) ∨
        ∃ reason events, x t = ⟨.error (.refused reason), t, events⟩) :
    Effect request s slot := by
  cases hslot : s.spaces.get? slot with
  | none =>
      rw [Action.bind_of_error (onSpace_of_none (space?_eq_none_of_get? hslot) x)] at hanswer
      exact effect_of_unchanged hdeed hanswer (by simp)
  | some space =>
      obtain ⟨pool, hspace⟩ := h.exists_space? hslot
      have hrun := onSpace_of_some hspace x
      rcases hx _ hspace with ⟨a, next, events, hdone, hdid⟩ | ⟨reason, events, hrefused⟩
      · rw [hdone] at hrun
        rw [Action.bind_of_ok hrun] at hanswer
        exact .did deed hdeed (f a) (congrArg Outcome.result hanswer)
          ((congrArg Outcome.state hanswer).symm ▸ hdid)
      · rw [hrefused, putSpace_self hspace] at hrun
        rw [Action.bind_of_error hrun] at hanswer
        exact effect_of_unchanged hdeed hanswer (by simp)

end Effects

section Balanced

variable {held : Holdings} (h : Balances s [] held)

include h

theorem effect_make (id : PoolId) : Effect (.space slot (.new id)) s slot := by
  have hdeed : (Request.space slot (.new id)).deed? = some (slot, .make id) := rfl
  cases hpool : s.pools[id]? with
  | none =>
      have hanswer : answer (.space slot (.new id)) s = ⟨.error .absent, s, []⟩ := by
        rw [answer, answerSpace, named_bind, hpool]
      exact effect_of_unchanged hdeed hanswer (by simp)
  | some pool =>
      have hid : id < s.pools.size := (Array.getElem?_eq_some_iff.mp hpool).1
      have hanswer : answer (.space slot (.new id)) s =
          ((placeSpace slot (.blank id) >>= fun _ => pure Answer.done) s).after
            [.logged .created] := by
        rw [answer, answerSpace, named_bind, hpool]
        exact Action.bind_of_ok (AddressSpace.create_eq id s)
      have hloose : Balances s [(AddressSpace.blank id).table] held := h.cons_empty hid
      obtain ⟨hresult, hspace⟩ := placed_of_balances hloose slot
      rw [← Outcome.result_after _ [.logged .created], ← hanswer] at hresult
      rw [← Outcome.state_after _ [.logged .created], ← hanswer] at hspace
      exact .did (.make id) hdeed .done hresult hspace

theorem answer_copy {source : SlotId} {space : AddressSpace}
    (hsource : s.spaces.get? source = some space) (slot : SlotId) :
    ∃ pool owned, s.pools[space.table.pool]? = some pool ∧ pool.HandedOut owned ∧
      space.table.frames ⊆ owned ∧
      ((owned.length + space.table.mappedCount ≤ pool.limit ∧ ∃ target next events,
          PageTable.TakesIn space.table.mappedPages owned (.empty space.table.pool, pool)
            (target, next) ∧
          Balances (putPool space.table.pool next s) [target] held ∧
          answer (.space source (.copy slot)) s =
            ((placeSpace slot { space with table := target } >>= fun _ => pure Answer.done)
              (putPool space.table.pool next s)).after events) ∨
        pool.limit < owned.length + space.table.mappedCount ∧ ∃ next events,
          answer (.space source (.copy slot)) s =
            ⟨.error (.refused .outOfMemory), putPool space.table.pool next s, events⟩) := by
  have hlive := mem_liveTables_of_space hsource
  have hwellFormed := h.wellFormed _ hlive
  obtain ⟨pool, hpool⟩ := h.exists_pool hlive
  have howned := h.handedOut _ pool hpool
  have hframes := List.subset_append_of_subset_left (held.on space.table.pool)
    (frames_subset_framesOn (List.mem_append_right [] hlive))
  have hanswer : answer (.space source (.copy slot)) s =
      (onPool space.table.pool space.copy >>= fun copy => do
        placeSpace slot copy
        return Answer.done) s := by
    rw [answer, answerSpace, named_bind, hsource]
  have hrun := onPool_of_some hpool space.copy
  refine ⟨pool, _, hpool, howned, hframes, ?_⟩
  rcases Nat.lt_or_ge pool.limit _ with hshort | hroom
  · obtain ⟨next, events, hcopy, -⟩ := PageTable.copy_of_short hwellFormed howned hframes hshort
    rw [AddressSpace.copy_of_error hcopy] at hrun
    exact .inr ⟨hshort, next, events, hanswer.trans (Action.bind_of_error hrun)⟩
  · obtain ⟨target, next, events, hcopy, htakes⟩ :=
      PageTable.copy_of_room hwellFormed howned hframes hroom
    rw [AddressSpace.copy_of_ok hcopy] at hrun
    refine .inl ⟨hroom, target, next, _, htakes, ?_, hanswer.trans (Action.bind_of_ok hrun)⟩
    exact (h.cons_empty (h.homed _ hlive)).exchange htakes.pool
      ⟨htakes.wellFormed, htakes.handedOut⟩

theorem effect_copy (source : SlotId) : Effect (.space source (.copy slot)) s slot := by
  have hdeed : (Request.space source (.copy slot)).deed? = some (slot, .copy source) := rfl
  cases hsource : s.spaces.get? source with
  | none =>
      have hanswer : answer (.space source (.copy slot)) s = ⟨.error .absent, s, []⟩ := by
        rw [answer, answerSpace, named_bind, hsource]
      exact effect_of_unchanged hdeed hanswer (by simp)
  | some space =>
      have hwellFormed := h.wellFormed _ (mem_liveTables_of_space hsource)
      obtain ⟨pool, owned, -, howned, hframes, hplaced | ⟨-, next, events, hanswer⟩⟩ :=
        answer_copy h hsource slot
      · obtain ⟨-, target, next, events, htakes, hnext, hanswer⟩ := hplaced
        have hfork := AddressSpace.isFork_of_takesIn hwellFormed howned hframes htakes
        have hloose : Balances (putPool space.table.pool next s)
            [AddressSpace.table { space with table := target }] held := hnext
        obtain ⟨hresult, hspace⟩ := placed_of_balances hloose slot
        rw [← Outcome.result_after _ events, ← hanswer] at hresult
        rw [← Outcome.state_after _ events, ← hanswer] at hspace
        exact .did (.copy source) hdeed .done hresult
          ⟨space, _, pool, next, hsource, hspace, hfork⟩
      · refine .declined (.copy source) hdeed (.refused .outOfMemory) ?_ (by simp) ?_
        · rw [hanswer]
        · rw [hanswer]
          rfl

omit h in
theorem did_declare {declaration : Declaration} {region : Region} {t : AddressSpace × FramePool}
    (hspace : space? slot s = some t) (hregion : declaration.region = .ok region) :
    Did s (putSpace slot (t.1.withRegion region, t.2) s) slot (.declare declaration) :=
  ⟨t.1, region, (space?_eq_some_iff.mp hspace).1, hregion, get?_putSpace _ s⟩

theorem effect_define (address length : UInt64) (permissions : Permissions) :
    Effect (.space slot (.define address length permissions)) s slot := by
  have hdeed : (Request.space slot (.define address length permissions)).deed? =
      some (slot, .declare ⟨address, length, permissions⟩) := rfl
  refine effect_onSpace hdeed h rfl fun t hspace => ?_
  rw [Action.first, Action.run_on]
  rcases Declaration.region_cases ⟨address, length, permissions⟩ with ⟨region, hregion⟩ | hrefused
  · obtain ⟨events, hdefine⟩ := AddressSpace.defineRegion_of_declared t.1 hregion
    rw [hdefine]
    exact .inl ⟨_, _, _, rfl, did_declare hspace hregion⟩
  · rw [AddressSpace.defineRegion_of_refused t.1 hrefused]
    exact .inr ⟨_, _, rfl⟩

theorem effect_stack
    (hstack : ∀ space, s.spaces.get? slot = some space → space.stackBase = AddressSpace.stackEnd) :
    Effect (.space slot .stack) s slot := by
  have hdeed : (Request.space slot .stack).deed? = some (slot, .declare .stack) := rfl
  refine effect_onSpace hdeed h rfl fun t hspace => ?_
  obtain ⟨region, hregion⟩ : ∃ region, Declaration.stack.region = .ok region := ⟨_, rfl⟩
  obtain ⟨events, hdefine⟩ := AddressSpace.defineRegion_of_declared t.1 hregion
  rw [Action.first, Action.run_on,
    AddressSpace.defineStack_eq (hstack t.1 (space?_eq_some_iff.mp hspace).1),
    Action.bind_of_ok hdefine]
  exact .inl ⟨_, _, _, rfl, did_declare hspace hregion⟩

theorem effect_beginLoad : Effect (.space slot .beginLoad) s slot := by
  have hdeed : (Request.space slot .beginLoad).deed? = some (slot, .beginLoad) := rfl
  refine effect_onSpace hdeed h rfl fun t hspace => ?_
  rw [Action.first, Action.run_on]
  cases hloading : t.1.loading with
  | false =>
      rw [AddressSpace.beginLoad_of_not_loading hloading]
      exact .inl ⟨_, _, _, rfl, t.1, (space?_eq_some_iff.mp hspace).1, hloading,
        get?_putSpace _ s⟩
  | true =>
      rw [AddressSpace.beginLoad_of_loading hloading]
      exact .inr ⟨_, _, rfl⟩

omit h in
theorem effect_endLoad {id : Nat} (hmasks : Request.MasksOwn s (.space slot (.endLoad id))) :
    Effect (.space slot (.endLoad id)) s slot := by
  have hdeed : (Request.space slot (.endLoad id)).deed? = some (slot, .endLoad) := rfl
  cases hprocessor : s.processors[id]? with
  | none =>
      have hanswer : answer (.space slot (.endLoad id)) s = ⟨.error .absent, s, []⟩ := by
        rw [answer, answerSpace, named_bind, hprocessor]
      exact effect_of_unchanged hdeed hanswer (by simp)
  | some processor =>
      have hanswer : answer (.space slot (.endLoad id)) s =
          (onLoad slot (AddressSpace.endLoad processor) >>= fun _ => pure Answer.done) s := by
        rw [answer, answerSpace, named_bind, hprocessor]
      cases hslot : s.spaces.get? slot with
      | none =>
          rw [Action.bind_of_error (onLoad_of_none hslot _)] at hanswer
          exact effect_of_unchanged hdeed hanswer (by simp)
      | some space =>
          have hrun := onLoad_of_some hslot (AddressSpace.endLoad processor)
          cases hloading : space.loading with
          | false =>
              rw [AddressSpace.endLoad_of_not_loading processor hloading, Slots.put_self hslot]
                at hrun
              rw [Action.bind_of_error hrun] at hanswer
              exact effect_of_unchanged hdeed hanswer (by simp)
          | true =>
              obtain ⟨events, hend⟩ := AddressSpace.endLoad_of_loading
                (hmasks processor hprocessor) hloading s.machines
              rw [hend] at hrun
              rw [Action.bind_of_ok hrun] at hanswer
              refine .did .endLoad hdeed .done ?_ ⟨space, hslot, hloading, ?_⟩
              · rw [hanswer]
                rfl
              · rw [hanswer]
                exact (s.spaces.get?_put slot slot space.closed).trans (if_pos rfl)

theorem effect_giveUp {request : SpaceRequest}
    (hdeed : (Request.space slot request).deed? = some (slot, .giveUp))
    {x : Action (AddressSpace × FramePool) Unit}
    (hanswer : answer (.space slot request) s = (do
      onSpace slot x
      Action.update fun s : Session n => { s with spaces := s.spaces.erase slot }
      return Answer.nothing : Action (Session n) Answer) s)
    (hx : ∀ {t owned}, PageTable.Backed owned (AddressSpace.part t) → (x t).result = .ok ()) :
    Effect (.space slot request) s slot := by
  cases hslot : s.spaces.get? slot with
  | none =>
      rw [Action.bind_of_error (onSpace_of_none (space?_eq_none_of_get? hslot) x)] at hanswer
      exact effect_of_unchanged hdeed hanswer (by simp)
  | some space =>
      obtain ⟨pool, hspace⟩ := h.exists_space? hslot
      obtain ⟨owned, hbacked⟩ := h.exists_backed hspace
      have hrun := onSpace_of_some hspace x
      rw [hx hbacked] at hrun
      rw [Action.bind_of_ok hrun] at hanswer
      refine .did .giveUp hdeed .nothing ?_ ?_
      · rw [hanswer]
        rfl
      · rw [hanswer]
        exact (Slots.get?_erase _ slot slot).trans (if_pos rfl)

end Balanced

section Touch

theorem effect_touch {request : Request} {page : PageNumber}
    (hdeed : request.deed? = some (slot, .touch page)) {x : Action (Context × Machines n) Unit}
    (hanswer : answer request s = (onProcess slot x >>= fun _ => pure Answer.done) s)
    (habsent : ∃ reason events,
      x (none, s.machines) = ⟨.error (.refused reason), (none, s.machines), events⟩)
    (hsettles : ∀ t, space? slot s = some t → ∃ next,
      (x (some t, s.machines)).state.1 = some next ∧
        AddressSpace.Settles page t (x (some t, s.machines)).result next) :
    Effect request s slot := by
  cases hspace : space? slot s with
  | none =>
      obtain ⟨reason, events, hrefused⟩ := habsent
      rw [Action.bind_of_error (onProcess_of_none hspace hrefused)] at hanswer
      exact effect_of_unchanged hdeed hanswer (by simp)
  | some t =>
      obtain ⟨next, hnext, hsettled⟩ := hsettles t hspace
      rcases hx : x (some t, s.machines) with ⟨result, ⟨context, machines⟩, events⟩
      rw [hx] at hnext hsettled
      obtain rfl : context = some next := hnext
      have hrun := onProcess_of_some hspace hx
      obtain ⟨hslot, hpool⟩ := space?_eq_some_iff.mp hspace
      cases hsettled with
      | served address haddress htouches =>
          rw [Action.bind_of_ok hrun] at hanswer
          refine .did (.touch page) hdeed .done ?_
            ⟨t, next, address, hspace, ?_, haddress, htouches⟩
          · rw [hanswer]
            rfl
          · rw [hanswer]
            exact space?_putSpace hspace htouches.pool
      | refused reason =>
          rw [Action.bind_of_error hrun, putSpace_self hspace] at hanswer
          refine .declined (.touch page) hdeed (.refused reason) ?_ (by simp) ?_
          · rw [hanswer]
          · rw [hanswer]
            exact ⟨rfl, .inl rfl⟩
      | short first =>
          rw [Action.bind_of_error hrun] at hanswer
          refine .declined (.touch page) hdeed (.refused .outOfMemory) ?_ (by simp) ?_
          · rw [hanswer]
          · rw [hanswer]
            refine ⟨?_, .inr ⟨t.1, first, hslot, get?_putSpace _ s⟩⟩
            rw [← PageTable.pool_withBlock t.1.table first] at hpool
            have hpools := congrArg Session.pools (putPool_self hpool)
            exact hpools

theorem effect_fault {held : Holdings} (h : Balances s [] held) {id : Nat}
    {request : ProcessorRequest}
    (hmasks : Request.MasksOwn s (.processor id request))
    (hdeed : (Request.processor id request).deed? = some (slot, deed)) :
    Effect (.processor id request) s slot := by
  cases hprocessor : s.processors[id]? with
  | none =>
      have hanswer : answer (.processor id request) s = ⟨.error .absent, s, []⟩ := by
        rw [answer, named_bind, hprocessor]
      exact effect_of_unchanged hdeed hanswer (by simp)
  | some processor =>
      have hsame := hmasks processor hprocessor
      have hanswer : answer (.processor id request) s = answerProcessor processor request s := by
        rw [answer, named_bind, hprocessor]
      cases request with
      | fault other access word =>
          cases hdeed
          refine effect_touch rfl hanswer
            (Context.handleFault_of_absent processor s.machines access word) fun t hspace => ?_
          obtain ⟨owned, hbacked⟩ := h.exists_backed hspace
          exact Context.settles_handleFault hsame hbacked s.machines access word
      | rawFault other code word =>
          cases hdeed
          refine effect_touch rfl hanswer
            (Context.handleRawFault_of_absent processor s.machines code word) fun t hspace => ?_
          obtain ⟨owned, hbacked⟩ := h.exists_backed hspace
          exact Context.settles_handleRawFault hsame hbacked s.machines code word
      | _ => contradiction

end Touch

/-- Whatever is asked of the spaces of a balanced session, no assertion fails, and what is granted
is done. -/
theorem effect_answer {held : Holdings} (h : Balances s [] held)
    (hstack : ∀ space, s.spaces.get? slot = some space → space.stackBase = AddressSpace.stackEnd)
    {request : Request} (hmasks : request.MasksOwn s) : Effect request s slot := by
  by_cases hdeed : ∃ deed, request.deed? = some (slot, deed)
  · obtain ⟨deed, hdeed⟩ := hdeed
    cases request with
    | space other request =>
        cases request with
        | new id =>
            cases hdeed
            exact effect_make h id
        | define address length permissions =>
            cases hdeed
            exact effect_define h address length permissions
        | stack =>
            cases hdeed
            exact effect_stack h hstack
        | beginLoad =>
            cases hdeed
            exact effect_beginLoad h
        | endLoad id =>
            cases hdeed
            exact effect_endLoad hmasks
        | copy target =>
            cases hdeed
            exact effect_copy h other
        | destroy =>
            cases hdeed
            exact effect_giveUp h rfl rfl AddressSpace.result_destroy
        | drop =>
            cases hdeed
            exact effect_giveUp h rfl rfl AddressSpace.result_discard
        | _ => contradiction
    | processor id request => exact effect_fault h hmasks hdeed
    | _ => contradiction
  · exact .elsewhere (fun deed hsome => hdeed ⟨deed, hsome⟩)
      (leaves_of_deed?_ne (fun deed hsome => hdeed ⟨deed, hsome⟩) s)

end Session

end DemandPaging
