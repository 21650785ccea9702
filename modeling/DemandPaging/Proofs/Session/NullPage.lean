import DemandPaging.Proofs.Session.Service

namespace DemandPaging

theorem Access.exists_ofCode {code : UInt32} (hcode : code ≤ 2) :
    ∃ access, ofCode code = .ok access := by
  have hcases : code = 0 ∨ code = 1 ∨ code = 2 := by
    simp only [← UInt32.toNat_inj, UInt32.le_iff_toNat_le] at hcode ⊢
    have hlast : (2 : UInt32).toNat = 2 := rfl
    have hsecond : (1 : UInt32).toNat = 1 := rfl
    have hfirst : (0 : UInt32).toNat = 0 := rfl
    omega
  rcases hcases with rfl | rfl | rfl <;> exact ⟨_, rfl⟩

theorem VirtualAddress.word_pageBase_eq_zero_iff {address : VirtualAddress} :
    address.pageBase.word = 0 ↔ address.word.toNat < Layout.pageSize := by
  rw [← UInt64.toNat_inj, toNat_pageBase]
  change address.word.toNat / 4096 * 4096 = 0 ↔ address.word.toNat < 4096
  omega

def Request.faultAt? : Request → Option UInt64
  | .processor _ (.fault _ _ word) | .processor _ (.rawFault _ _ word) => some word
  | _ => none

/-- A mapping that is named by the caller, and not found by a fault, is not one of the first page.
-/
def Request.SparesNull : Request → Prop
  | .processor _ (.install page _ _) | .machine _ (.insert page _ _) => page ≠ 0
  | _ => True

/-- A session with a single machine, and where faults were served since its cache was emptied
last. -/
structure Tracked where
  session : Session 1
  held : Holdings
  served : List UInt64

namespace Context

variable {n : Nat} (processor : Processor n) (machines : Machines n) (context : Context)

theorem handleFault_null (access : Access) :
    ∃ events, handleFault processor access 0 (context, machines) =
      ⟨.error (.refused .protectionFault), (context, machines), events⟩ :=
  handleFault_of_denied processor machines (.inr (.inl rfl))

theorem handleRawFault_null {code : UInt32} (hcode : code ≤ 2) :
    ∃ events, handleRawFault processor code 0 (context, machines) =
      ⟨.error (.refused .protectionFault), (context, machines), events⟩ := by
  obtain ⟨access, haccess⟩ := Access.exists_ofCode hcode
  rw [handleRawFault, haccess]
  exact handleFault_null processor machines context access

end Context

namespace Session

variable {n : Nat} {s : Session n} {id : Nat} {processor : Processor n}

theorem onProcess_of_same {slot : SlotId} {x : Action (Context × Machines n) Unit}
    {result : Except Stop Unit} {events : List Event}
    (hx : x (space? slot s, s.machines) = ⟨result, (space? slot s, s.machines), events⟩) :
    onProcess slot x s = ⟨result, s, events⟩ := by
  cases hspace : space? slot s with
  | none =>
      rw [hspace] at hx
      exact onProcess_of_none hspace hx
  | some t =>
      rw [hspace] at hx
      rw [onProcess_of_some hspace hx, putSpace_self hspace]

theorem answer_null (hprocessor : s.processors[id]? = some processor) (slot : SlotId)
    (access : Access) :
    ∃ events, answer (.processor id (.fault slot access 0)) s =
      ⟨.error (.refused .protectionFault), s, events⟩ := by
  obtain ⟨events, hfault⟩ := Context.handleFault_null processor s.machines (space? slot s) access
  refine ⟨events, ?_⟩
  rw [answer, named_bind, hprocessor]
  exact Action.bind_of_error (onProcess_of_same hfault)

theorem answer_rawNull (hprocessor : s.processors[id]? = some processor) (slot : SlotId)
    {code : UInt32} (hcode : code ≤ 2) :
    ∃ events, answer (.processor id (.rawFault slot code 0)) s =
      ⟨.error (.refused .protectionFault), s, events⟩ := by
  obtain ⟨events, hfault⟩ :=
    Context.handleRawFault_null processor s.machines (space? slot s) hcode
  refine ⟨events, ?_⟩
  rw [answer, named_bind, hprocessor]
  exact Action.bind_of_error (onProcess_of_same hfault)

theorem onProcess_eq (slot : SlotId) (x : Action (Context × Machines n) Unit) (s : Session n) :
    (onProcess slot x s).result = (x (space? slot s, s.machines)).result ∧
      (onProcess slot x s).state.machines = (x (space? slot s, s.machines)).state.2 := by
  rw [onProcess, Action.run_on]
  cases (x (space? slot s, s.machines)).state.1 <;> exact ⟨rfl, rfl⟩

theorem onProcess_of_isOk {slot : SlotId} {x : Action (Context × Machines n) Unit}
    (hok : (((onProcess slot x : Action (Session n) Unit) >>=
      fun _ => pure Answer.done) s).result.isOk = true) :
    (x (space? slot s, s.machines)).result = .ok () ∧
      (((onProcess slot x : Action (Session n) Unit) >>=
        fun _ => pure Answer.done) s).state.machines = (x (space? slot s, s.machines)).state.2 := by
  obtain ⟨hresult, hmachines⟩ := onProcess_eq slot x s
  rcases hrun : onProcess slot x s with ⟨result, next, events⟩
  rw [hrun] at hresult hmachines
  cases result with
  | ok _ =>
      rw [Action.bind_of_ok hrun]
      exact ⟨hresult.symm, hmachines⟩
  | error reason =>
      rw [Action.bind_of_error hrun] at hok
      cases hok

theorem exists_handleFault_of_isOk {request : Request} {word : UInt64}
    (hfault : request.faultAt? = some word) (hok : (answer request s).result.isOk = true) :
    ∃ (processor : Processor n) (slot : SlotId) (access : Access),
      (Context.handleFault processor access word (space? slot s, s.machines)).result = .ok () ∧
      (answer request s).state.machines =
        (Context.handleFault processor access word (space? slot s, s.machines)).state.2 := by
  cases request with
  | processor id request =>
      rw [answer, named_bind] at hok ⊢
      cases hprocessor : s.processors[id]? with
      | none =>
          rw [hprocessor] at hok
          cases hok
      | some processor =>
          rw [hprocessor] at hok
          cases request with
          | fault slot access other =>
              obtain rfl : other = word := Option.some.inj hfault
              exact ⟨processor, slot, access, onProcess_of_isOk hok⟩
          | rawFault slot code other =>
              obtain rfl : other = word := Option.some.inj hfault
              obtain ⟨hresult, hmachines⟩ := onProcess_of_isOk hok
              cases hcode : Access.ofCode code with
              | ok access =>
                  have hraw : Context.handleRawFault processor code other =
                      Context.handleFault processor access other := by
                    rw [Context.handleRawFault, hcode]
                  exact ⟨processor, slot, access, hraw ▸ hresult, hmachines.trans (by rw [hraw])⟩
              | error reason =>
                  rw [Context.handleRawFault, hcode] at hresult
                  cases hresult
          | _ => cases hfault
  | _ => cases hfault

theorem ne_zero_of_isOk {request : Request} {word : UInt64} (hfault : request.faultAt? = some word)
    (hok : (answer request s).result.isOk = true) : word ≠ 0 := by
  rintro rfl
  obtain ⟨processor, slot, access, hserved, -⟩ := exists_handleFault_of_isOk hfault hok
  exact Context.not_denied_of_served hserved (.inr (.inl rfl))

theorem cached_of_isOk {s : Session 1} {held : Holdings} (h : Reachable s held) {request : Request}
    {word : UInt64} (hfault : request.faultAt? = some word)
    (hok : (answer request s).result.isOk = true) :
    ∃ address : VirtualAddress, address.word = word ∧
      ((answer request s).state.machine.lookup address).isSome = true := by
  obtain ⟨processor, slot, access, hserved, hmachines⟩ := exists_handleFault_of_isOk hfault hok
  obtain ⟨address, space, pool, next, last, hword, -, -, hserves⟩ :=
    served_of_reachable h (Subsingleton.elim processor.cache processor.interrupts) hserved
  obtain ⟨mapping, entry, region, target, hfound, -⟩ := hserves.found
  refine ⟨address, VirtualAddress.ofWord?_eq_some_iff.mp hword, ?_⟩
  rw [machine, hmachines, Subsingleton.elim 0 processor.cache, hfound]
  rfl

end Session

namespace Tracked

open Session (answer)

def after (t : Tracked) (request : Request) : Tracked :=
  let outcome := answer request t.session
  { session := outcome.state
    held := t.held.after request outcome.result
    served :=
      if outcome.state.machine.invalidations = t.session.machine.invalidations then
        if outcome.result.isOk then request.faultAt?.toList ++ t.served else t.served
      else [] }

def Fresh (t : Tracked) : Prop :=
  t.session.Fresh ∧ t.held = [] ∧ t.served = []

def Allows (t : Tracked) (request : Request) : Prop :=
  request.Honest t.session t.held ∧ request.SparesNull

/-- The states to which requests lead from fresh pools and an empty cache. -/
def Traced (t : Tracked) : Prop :=
  Reached Fresh Allows after t

theorem Traced.reachable {t : Tracked} (h : Traced t) : Session.Reachable t.session t.held := by
  refine Reached.keeps h (P := fun t => Session.Reachable t.session t.held) ?_ ?_
  · rintro ⟨s, held, served⟩ ⟨hsession, rfl, -⟩
    exact hsession.reachable
  · intro t request _ hallows ih
    exact ih.step request hallows.1

/-- A fault was served at another address of the first page since the cache was emptied last. -/
def Touched (t : Tracked) : Prop :=
  ∃ word ∈ t.served, 0 < word.toNat ∧ word.toNat < Layout.pageSize

theorem touched_of_installs {s : Session 1} {request : Request} {mapping : Mapping}
    (hspares : request.SparesNull) (hinstalls : request.Installs mapping)
    (hok : (answer request s).result.isOk = true) (hpage : mapping.page.word = 0) :
    ∃ word, request.faultAt? = some word ∧ 0 < word.toNat ∧ word.toNat < Layout.pageSize := by
  cases request with
  | processor id request =>
      cases request with
      | fault slot access word | rawFault slot code word =>
          obtain ⟨address, rfl, hbase⟩ := hinstalls
          rw [hbase, VirtualAddress.word_pageBase_eq_zero_iff] at hpage
          exact ⟨address.word, rfl,
            Nat.pos_of_ne_zero fun hzero =>
              Session.ne_zero_of_isOk rfl hok (UInt64.toNat_inj.mp hzero),
            hpage⟩
      | install page frame flags =>
          exact absurd ((Mapping.word_of_ofWords hinstalls).1.symm.trans hpage) hspares
      | _ => exact hinstalls.elim
  | machine id request =>
      cases request with
      | insert page frame flags =>
          exact absurd ((Mapping.word_of_ofWords hinstalls).1.symm.trans hpage) hspares
      | _ => exact hinstalls.elim
  | _ => exact hinstalls.elim

theorem touched_after {t : Tracked} {request : Request} (hspares : request.SparesNull)
    {mapping : Mapping} (hkept : some mapping ∈ t.session.machine.slots → t.Touched)
    (hmem : some mapping ∈ (t.after request).session.machine.slots)
    (hpage : mapping.page.word = 0) : (t.after request).Touched := by
  obtain ⟨hcount, hcached⟩ := (Session.changes_answer request t.session 0).mem_slots hmem
  have hserved : (t.after request).served =
      if (answer request t.session).result.isOk then request.faultAt?.toList ++ t.served
      else t.served :=
    if_pos hcount
  rcases hcached with hold | ⟨hinstalls, hok⟩
  · obtain ⟨word, hword, hnear⟩ := hkept hold
    refine ⟨word, ?_, hnear⟩
    rw [hserved]
    split
    · exact List.mem_append_right _ hword
    · exact hword
  · obtain ⟨word, hfault, hnear⟩ := touched_of_installs hspares hinstalls hok hpage
    refine ⟨word, ?_, hnear⟩
    rw [hserved, if_pos hok, hfault]
    exact List.mem_cons_self

/-- The first page is in the cache only after it was touched at another address than zero. -/
theorem Traced.touched {t : Tracked} (h : Traced t) {mapping : Mapping}
    (hmem : some mapping ∈ t.session.machine.slots) (hpage : mapping.page.word = 0) :
    t.Touched := by
  refine Reached.keeps h (P := fun t => some mapping ∈ t.session.machine.slots → t.Touched)
    ?_ ?_ hmem
  · rintro ⟨s, held, served⟩ ⟨⟨pools, processors, -, rfl⟩, -⟩ hmem
    simp [Session.machine, Session.new, Machine.new, Vector.get] at hmem
  · intro t request _ hallows ih hmem
    exact touched_after hallows.2 ih hmem hpage

/-- What keeps a process from reaching address zero, and how far it does. -/
structure GuardsNull (t : Tracked) : Prop where
  denied : ∀ id processor slot access, t.session.processors[id]? = some processor →
    ∃ events, answer (.processor id (.fault slot access 0)) t.session =
      ⟨.error (.refused .protectionFault), t.session, events⟩
  deniedRaw : ∀ id processor slot (code : UInt32), t.session.processors[id]? = some processor →
    code ≤ 2 → ∃ events, answer (.processor id (.rawFault slot code 0)) t.session =
      ⟨.error (.refused .protectionFault), t.session, events⟩
  absent : ¬ t.Touched → ∀ address : VirtualAddress, address.word.toNat < Layout.pageSize →
    t.session.machine.lookup address = none
  present : ∀ request word, request.faultAt? = some word → word.toNat < Layout.pageSize →
    (answer request t.session).result.isOk = true →
      ∀ address : VirtualAddress, address.word.toNat < Layout.pageSize →
        ((t.after request).session.machine.lookup address).isSome = true

/-- A fault at address zero is always denied, and the first page is in the cache only if a fault at
another of its addresses was served since the cache was emptied last. -/
theorem guardsNull_of_traced {t : Tracked} (h : Traced t) : t.GuardsNull where
  denied id processor slot access hprocessor := Session.answer_null hprocessor slot access
  deniedRaw id processor slot code hprocessor hcode := Session.answer_rawNull hprocessor slot hcode
  absent htouched address hnear := by
    rw [Machine.lookup_eq_none_iff]
    intro mapping hmem hpage
    refine htouched (h.touched hmem ?_)
    rwa [hpage, VirtualAddress.word_pageBase_eq_zero_iff]
  present request word hfault hword hok address hnear := by
    obtain ⟨other, rfl, hfound⟩ := Session.cached_of_isOk h.reachable hfault hok
    have hbase : address.pageBase = other.pageBase :=
      VirtualAddress.word_injective
        ((VirtualAddress.word_pageBase_eq_zero_iff.mpr hnear).trans
          (VirtualAddress.word_pageBase_eq_zero_iff.mpr hword).symm)
    change (Machine.lookup (answer request t.session).state.machine address).isSome = true
    rwa [Machine.lookup, hbase]

def ofLimits (limits : Array UInt64) (processors : Array (Processor 1)) : Tracked :=
  ⟨.ofLimits limits processors, [], []⟩

theorem traced_ofLimits (limits : Array UInt64) (processors : Array (Processor 1)) :
    Traced (ofLimits limits processors) :=
  Reached.start ⟨Session.fresh_ofLimits limits processors, rfl, rfl⟩

def run (t : Tracked) (requests : List Request) : Tracked :=
  requests.foldl after t

def AllowsAll (t : Tracked) (requests : List Request) : Prop :=
  AllAllowed Allows after t requests

theorem Traced.run {t : Tracked} (h : Traced t) {requests : List Request}
    (hallows : t.AllowsAll requests) : Traced (t.run requests) :=
  Reached.run h hallows

/-- A process whose regions begin at address zero has read from address eight. -/
def readNearNull : Tracked :=
  (ofLimits #[1] #[.sole]).run
    [.space 0 (.new 0), .space 0 (.define 0 0x1000 .readWrite), .processor 0 (.activate 0),
      .processor 0 (.fault 0 .read 8)]

theorem traced_readNearNull : Traced readNearNull :=
  (traced_ofLimits #[1] #[.sole]).run
    (⟨⟨trivial, trivial⟩, ⟨trivial, trivial⟩, ⟨trivial, trivial⟩, ⟨trivial, trivial⟩, trivial⟩ :
      (ofLimits #[1] #[.sole]).AllowsAll
        [.space 0 (.new 0), .space 0 (.define 0 0x1000 .readWrite), .processor 0 (.activate 0),
          .processor 0 (.fault 0 .read 8)])

theorem guardsNull_of_readNearNull : Traced readNearNull ∧ readNearNull.GuardsNull :=
  ⟨traced_readNearNull, guardsNull_of_traced traced_readNearNull⟩

/-- Address zero is then reached without a fault. -/
theorem lookup_of_readNearNull :
    Traced readNearNull ∧ readNearNull.served = [8] ∧
      ∃ mapping, readNearNull.session.machine.lookup ⟨0⟩ = some mapping ∧
        mapping.entry.isValid = true := by
  have hcached : (readNearNull.session.machine.lookup ⟨0⟩).map (fun mapping =>
      mapping.entry.isValid) = some true := by
    decide +kernel
  exact ⟨traced_readNearNull, by decide +kernel, Option.map_eq_some_iff.mp hcached⟩

end Tracked

end DemandPaging
