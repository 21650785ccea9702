import DemandPaging.Proofs.CacheWrites
import DemandPaging.Proofs.Session.Locality
import DemandPaging.Proofs.Session.Reachable
import DemandPaging.Proofs.Translation

namespace DemandPaging

/-- A mapping that a request may put into a cache: one of the page where a fault has happened, or
the one that the request names. -/
def Request.Installs : Request → Mapping → Prop
  | .processor _ (.fault _ _ word), mapping | .processor _ (.rawFault _ _ word), mapping =>
      ∃ address : VirtualAddress, address.word = word ∧ mapping.page = address.pageBase
  | .processor _ (.install page frame flags), mapping
  | .machine _ (.insert page frame flags), mapping =>
      Mapping.ofWords page frame flags = .ok mapping
  | _, _ => False

theorem Mapping.word_of_ofWords {page frame flags : UInt64} {mapping : Mapping}
    (h : ofWords page frame flags = .ok mapping) :
    mapping.page.word = page ∧ mapping.page.isPageAligned = true := by
  rw [ofWords] at h
  cases hentry : PageEntry.new ⟨frame⟩ (.ofRaw flags) with
  | error assertion => simp [hentry, bind, Except.bind] at h
  | ok entry =>
      cases haddress : VirtualAddress.ofWord page with
      | error assertion => simp [hentry, haddress, bind, Except.bind] at h
      | ok address =>
          have hnew : Mapping.new address entry = .ok mapping := by
            simpa [hentry, haddress, bind, Except.bind] using h
          obtain ⟨hoffset, rfl⟩ : address.pageOffset = 0 ∧ ⟨address, entry⟩ = mapping := by
            by_cases hoffset : address.pageOffset = 0
            · simpa [Mapping.new, hoffset, Violation.unless, bind, Except.bind, pure, Except.pure]
                using hnew
            · simp [Mapping.new, hoffset, Violation.unless, bind, Except.bind] at hnew
          refine ⟨VirtualAddress.ofWord_eq_ok_iff.mp haddress, ?_⟩
          have hmod := address.toNat_pageOffset
          rw [hoffset] at hmod
          simp [VirtualAddress.isPageAligned, Layout.pageBytes, ← UInt64.toNat_inj, ← hmod]

theorem Request.Installs.isPageAligned {request : Request} {mapping : Mapping}
    (h : request.Installs mapping) : mapping.page.isPageAligned = true := by
  cases request with
  | processor id request =>
      cases request with
      | fault slot access word | rawFault slot code word =>
          obtain ⟨address, -, hpage⟩ := h
          exact hpage ▸ address.isPageAligned_pageBase
      | install page frame flags => exact (Mapping.word_of_ofWords h).2
      | _ => exact h.elim
  | machine id request =>
      cases request with
      | insert page frame flags => exact (Mapping.word_of_ofWords h).2
      | _ => exact h.elim
  | _ => exact h.elim

namespace Session

variable {n : Nat} {α : Type} {allowed : Mapping → Prop}

open DemandPaging.Action (Changes)

theorem changes_onMachines {x : Action (Machines n) α} (hx : Changes allowed id x) :
    Changes allowed Session.machines (onMachines x) :=
  fun s => hx s.machines

theorem changes_onProcess (slot : SlotId) {x : Action (Context × Machines n) α}
    (hx : Changes allowed Prod.snd x) : Changes allowed Session.machines (onProcess slot x) := by
  intro s id
  rw [onProcess, Action.run_on]
  have hchange := hx (space? slot s, s.machines) id
  cases hcontext : (x (space? slot s, s.machines)).state.1 <;> exact hchange

theorem changes_onLoad (slot : SlotId) {x : Action (AddressSpace × Machines n) α}
    (hx : Changes allowed Prod.snd x) : Changes allowed Session.machines (onLoad slot x) := by
  intro s id
  cases hspace : s.spaces.get? slot with
  | none =>
      rw [onLoad_of_none hspace]
      exact .refl _
  | some space =>
      rw [onLoad_of_some hspace]
      exact hx (space, s.machines) id

theorem changes_named_bind {value : Session n → Option α} {β : Type} {f : α → Action (Session n) β}
    (hf : ∀ a, Changes allowed Session.machines (f a)) :
    Changes allowed Session.machines (named value >>= f) := by
  intro s id
  rw [named_bind]
  cases value s with
  | some a => exact hf a s id
  | none => exact .refl _

theorem changes_answerMachine (id : Fin n) (request : MachineRequest) :
    Changes (Request.machine id.val request).Installs Session.machines
      (onMachines (request.answer id) : Action (Session n) Answer) := by
  apply changes_onMachines
  cases request with
  | mask => exact .then_pure (Machines.changes_of_atLevel fun _ => ⟨_, rfl⟩) _
  | restore level => exact .then_pure (Machines.changes_of_atLevel fun _ => ⟨_, rfl⟩) _
  | insert page frame flags =>
      refine .after_same (fun _ => rfl) fun machines mapping hmapping => .then_pure ?_ _
      refine (CacheWrite.changes_perform (.insert mapping) id).mono fun placed hplaced => ?_
      rw [← CacheWrite.insert.inj hplaced]
      exact Action.gives_lift (fun _ heq => heq) machines mapping hmapping
  | invalidate =>
      exact .then_pure ((CacheWrite.changes_perform .invalidate id).mono
        fun _ hplaced => nomatch hplaced) _
  | lookup addresses => exact .of_same fun _ => rfl

theorem changes_answerProcessor (id : Nat) (processor : Processor n) (request : ProcessorRequest) :
    Changes (Request.processor id request).Installs Session.machines
      (answerProcessor processor request) := by
  cases request with
  | fault slot access word =>
      exact (changes_onProcess slot (Context.changes_handleFault processor access word)).then_pure _
  | rawFault slot code word =>
      exact (changes_onProcess slot
        (Context.changes_handleRawFault processor code word)).then_pure _
  | activate slot | deactivate slot =>
      exact (changes_onProcess slot
        ((Context.changes_activate processor).mono fun _ => False.elim)).then_pure _
  | invalidate =>
      exact (changes_onMachines
        (processor.changes_invalidate.mono fun _ => False.elim)).then_pure _
  | install page frame flags =>
      refine .after_same (fun _ => rfl) fun s mapping hmapping => .then_pure ?_ _
      refine (changes_onMachines (processor.changes_install mapping)).mono fun placed hplaced => ?_
      rw [hplaced]
      exact Action.gives_lift (fun _ heq => heq) s mapping hmapping
  | shootdown address =>
      exact .after_same (fun _ => rfl) fun _ _ _ =>
        (changes_onMachines (.of_same fun _ => rfl)).then_pure _
  | machines => exact .of_same fun _ => rfl
  | guard =>
      refine .then_same (changes_onMachines (Machines.changes_of_atLevel fun _ => ⟨_, rfl⟩))
        fun _ _ => rfl

theorem changes_answerSpace (slot : SlotId) (request : SpaceRequest) :
    Changes (fun _ => False) Session.machines
      (answerSpace slot request : Action (Session n) Answer) := by
  by_cases hload : ∃ id, request = .endLoad id
  · obtain ⟨id, rfl⟩ := hload
    exact changes_named_bind fun processor =>
      (changes_onLoad slot (AddressSpace.changes_endLoad processor)).then_pure _
  · obtain ⟨other, hother⟩ : ∃ other, request.changed? slot ≠ some other := by
      cases request.changed? slot with
      | none => exact ⟨0, nofun⟩
      | some changed =>
          exact ⟨changed + 1, fun heq => Nat.succ_ne_self changed (Option.some.inj heq).symm⟩
    exact .of_same fun s =>
      congrArg Prod.fst (leaves_answerSpace hother (fun id heq => hload ⟨id, heq⟩) s)

/-- What a request may do to a machine, however it is answered. -/
theorem changes_answer (request : Request) :
    Changes request.Installs Session.machines (answer request : Action (Session n) Answer) := by
  cases request with
  | pool id request => exact .of_same fun s => congrArg Prod.fst (leaves_onPool id _ s)
  | machine id request =>
      rw [answer]
      split
      · rename_i hid
        exact changes_answerMachine ⟨id, hid⟩ request
      · exact .of_same fun _ => rfl
  | table slot request =>
      exact .of_same fun s => congrArg Prod.fst (leaves_answerTable slot request s)
  | space slot request => exact (changes_answerSpace slot request).mono fun _ => False.elim
  | processor id request =>
      exact changes_named_bind fun processor => changes_answerProcessor id processor request
  | unguard index =>
      refine changes_named_bind fun guard => .after_same (fun _ => rfl) fun _ _ _ => ?_
      exact (changes_onMachines (Machines.changes_of_atLevel fun _ => ⟨_, rfl⟩)).then_pure _

theorem Reachable.tidy {s : Session n} {held : Holdings} (h : Reachable s held) (id : Fin n) :
    (s.machines.get id).Tidy := by
  refine Reached.keeps h (P := fun x => (x.1.machines.get id).Tidy) ?_ ?_
  · rintro ⟨s, held⟩ ⟨⟨pools, processors, -, rfl⟩, -⟩
    have hnew : (Session.machines (new pools processors)).get id = Machine.new :=
      Vector.getElem_replicate id.isLt
    rw [hnew]
    exact Machine.tidy_of_empty fun mapping => by simp [Machine.new]
  · intro x request _ _ ih
    exact (changes_answer request x.1 id).tidy ih fun mapping hinstalls =>
      hinstalls.1.isPageAligned

end Session

end DemandPaging
