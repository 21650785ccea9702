import DemandPaging.Proofs.Cache
import DemandPaging.Proofs.Interrupts

namespace DemandPaging

namespace Machine

/-- What may become of a machine in one step. A mapping that is placed is one of those allowed. -/
inductive Change (allowed : Mapping → Prop) (machine : Machine) : Machine → Prop
  | level (level : InterruptLevel) : Change allowed machine (machine.withLevel level)
  | place (mapping : Mapping) (hallowed : allowed mapping) (level : InterruptLevel) :
      Change allowed machine ((machine.place mapping).withLevel level)
  | empty (level : InterruptLevel) : Change allowed machine (machine.emptied.withLevel level)

namespace Change

variable {allowed asked : Mapping → Prop} {machine after : Machine}

theorem refl (machine : Machine) : Change allowed machine machine :=
  .level machine.level

theorem mono (h : Change allowed machine after)
    (hasked : ∀ mapping, allowed mapping → asked mapping) : Change asked machine after := by
  cases h with
  | level level => exact .level level
  | place mapping hallowed level => exact .place mapping (hasked mapping hallowed) level
  | empty level => exact .empty level

theorem within {level last : InterruptLevel}
    (h : Change allowed (machine.withLevel level) after) :
    Change allowed machine (after.withLevel last) := by
  cases h with
  | level level => exact .level last
  | place mapping hallowed level =>
      rw [place_withLevel]
      exact .place mapping hallowed last
  | empty level => exact .empty last

theorem tidy (h : Change allowed machine after) (htidy : machine.Tidy)
    (haligned : ∀ mapping, allowed mapping → mapping.page.isPageAligned = true) : after.Tidy := by
  cases h with
  | level level => exact htidy.of_slots_eq rfl
  | place mapping hallowed level =>
      exact (htidy.place (haligned mapping hallowed)).of_slots_eq rfl
  | empty level => exact tidy_of_empty machine.not_mem_slots_emptied

theorem mem_slots (h : Change allowed machine after) {mapping : Mapping}
    (hmem : some mapping ∈ after.slots) :
    after.invalidations = machine.invalidations ∧
      (some mapping ∈ machine.slots ∨ allowed mapping) := by
  cases h with
  | level level => exact ⟨rfl, .inl hmem⟩
  | place placed hallowed level =>
      refine ⟨machine.invalidations_place placed, ?_⟩
      rcases mem_slots_place hmem with rfl | hold
      · exact .inr hallowed
      · exact .inl hold
  | empty level => exact absurd hmem (machine.not_mem_slots_emptied mapping)

end Change

end Machine

namespace Machines

variable {n : Nat}

theorem exists_get_atLevel (machines : Machines n) (id other : Fin n) (level : InterruptLevel) :
    ∃ known, (machines.atLevel id level).get other = (machines.get other).withLevel known := by
  by_cases h : other = id
  · exact ⟨level, by rw [h, atLevel, get_put_self]⟩
  · exact ⟨(machines.get other).level, by rw [atLevel, get_put_of_ne _ h]; rfl⟩

theorem change_put {allowed : Mapping → Prop} (machines : Machines n) {id : Fin n}
    {machine : Machine} (h : Machine.Change allowed (machines.get id) machine) (other : Fin n) :
    Machine.Change allowed (machines.get other) ((machines.put id machine).get other) := by
  by_cases heq : other = id
  · rw [heq, get_put_self]
    exact h
  · rw [get_put_of_ne _ heq]
    exact .refl _

end Machines

/-- An operation on machines, or on more than machines, changes each of them as it may, and places a
mapping only if it does not stop. -/
def Action.Changes {n : Nat} {σ α : Type} (allowed : Mapping → Prop) (part : σ → Machines n)
    (x : Action σ α) : Prop :=
  ∀ s id, Machine.Change (fun mapping => allowed mapping ∧ (x s).result.isOk = true)
    ((part s).get id) ((part (x s).state).get id)

namespace Action.Changes

variable {n : Nat} {σ τ α β : Type} {allowed : Mapping → Prop} {part : σ → Machines n}

theorem mono {asked : Mapping → Prop} {x : Action σ α} (hx : Changes allowed part x)
    (hasked : ∀ mapping, allowed mapping → asked mapping) : Changes asked part x :=
  fun s id => (hx s id).mono fun mapping hallowed => ⟨hasked mapping hallowed.1, hallowed.2⟩

theorem of_same {x : Action σ α} (hpart : ∀ s, part (x s).state = part s) :
    Changes allowed part x := by
  intro s id
  rw [hpart s]
  exact .refl _

theorem after_same {x : Action σ α} {f : α → Action σ β} (hpart : ∀ s, part (x s).state = part s)
    (hf : ∀ s a, (x s).result = .ok a → Changes allowed part (f a)) :
    Changes allowed part (x >>= f) := by
  intro s id
  rw [run_bind]
  have hsame := hpart s
  rcases hrun : x s with ⟨reason | a, t, events⟩
  · rw [hrun] at hsame
    simp only [hsame]
    exact .refl _
  · have hnext := hf s a (by rw [hrun]) t id
    rw [hrun] at hsame
    rw [← hsame]
    exact hnext

theorem then_same {x : Action σ α} {f : α → Action σ β} (hx : Changes (fun _ => False) part x)
    (hpart : ∀ a s, part (f a s).state = part s) : Changes allowed part (x >>= f) := by
  intro s id
  have hstate : part ((x >>= f) s).state = part (x s).state := by
    rw [state_bind]
    cases (x s).result with
    | ok a => exact hpart a _
    | error reason => rfl
  rw [hstate]
  exact (hx s id).mono fun _ hnone => hnone.1.elim

theorem then_pure {x : Action σ α} (hx : Changes allowed part x) (f : α → β) :
    Changes allowed part (x >>= fun a => pure (f a)) := by
  intro s id
  have hok : ((x >>= fun a => pure (f a)) s).result.isOk = (x s).result.isOk := by
    rw [result_bind]
    cases (x s).result <;> rfl
  rw [state_bind_pure, hok]
  exact hx s id

theorem second {x : Action (Machines n) α} (hx : Changes allowed id x) :
    Changes allowed Prod.snd (Action.second x : Action (σ × Machines n) α) :=
  fun s => hx s.2

theorem ifPresent {found : Action (σ × Machines n) α} {missing : Action (Machines n) α}
    (hfound : Changes allowed Prod.snd found) (hmissing : Changes allowed id missing) :
    Changes allowed Prod.snd (Action.ifPresent found missing) := by
  rintro ⟨- | s, machines⟩
  · exact hmissing machines
  · exact hfound (s, machines)

end Action.Changes

open DemandPaging.Action (Changes)

namespace CacheWrite

variable {n : Nat}

theorem changes_perform (write : CacheWrite) (cache : Fin n) :
    Changes (fun mapping => write = .insert mapping) id (write.perform cache) := by
  intro machines
  cases hlevel : (machines.get cache).level with
  | enabled =>
      have hstate : (write.perform cache machines).state = machines := by
        cases write with
        | insert mapping => rw [perform, Machines.insert_of_enabled hlevel]
        | invalidate => rw [perform, Machines.invalidate_of_enabled hlevel]
      rw [hstate]
      exact fun _ => .refl _
  | masked =>
      cases write with
      | insert mapping =>
          rw [perform, Machines.insert_of_masked hlevel]
          exact machines.change_put (.place mapping ⟨rfl, rfl⟩ _)
      | invalidate =>
          rw [perform, Machines.invalidate_of_masked hlevel]
          exact machines.change_put (.empty _)

end CacheWrite

theorem Machines.changes_of_atLevel {n : Nat} {α : Type} {allowed : Mapping → Prop} {place : Fin n}
    {x : Action (Machines n) α}
    (hx : ∀ machines : Machines n, ∃ level, (x machines).state = machines.atLevel place level) :
    Changes allowed id x := by
  intro machines other
  obtain ⟨level, hstate⟩ := hx machines
  obtain ⟨known, hknown⟩ := machines.exists_get_atLevel place other level
  rw [hstate]
  exact hknown ▸ .level known

namespace Processor

variable {n : Nat} (processor : Processor n)

theorem changes_whileMasked {allowed : Mapping → Prop} {x : Action (Machines n) Unit}
    (hx : Changes allowed id x) : Changes allowed id (processor.whileMasked x) := by
  intro machines id
  rw [whileMasked_eq]
  obtain ⟨known, hbefore⟩ := machines.exists_get_atLevel processor.interrupts id .masked
  have hchange : Machine.Change _ ((machines.atLevel processor.interrupts .masked).get id) _ :=
    hx (machines.atLevel processor.interrupts .masked) id
  obtain ⟨last, hafter⟩ := Machines.exists_get_atLevel
    (x (machines.atLevel processor.interrupts .masked)).state processor.interrupts id
    (machines.get processor.interrupts).level
  rw [hbefore] at hchange
  exact hafter ▸ hchange.within

theorem changes_install (mapping : Mapping) :
    Changes (fun placed => placed = mapping) id (processor.install mapping) := by
  refine .after_same (fun _ => rfl) fun _ _ _ => processor.changes_whileMasked ?_
  exact (CacheWrite.changes_perform (.insert mapping) processor.cache).mono
    fun placed hplaced => (CacheWrite.insert.inj hplaced).symm

theorem changes_invalidate : Changes (fun _ => False) id processor.invalidate :=
  processor.changes_whileMasked <|
    (CacheWrite.changes_perform .invalidate processor.cache).mono fun _ hplaced => nomatch hplaced

end Processor

def Action.Gives {σ α : Type} (p : α → Prop) (x : Action σ α) : Prop :=
  ∀ s a, (x s).result = .ok a → p a

theorem Action.Gives.bind {σ α β : Type} {p : α → Prop} {q : β → Prop} {x : Action σ α}
    {f : α → Action σ β} (hx : Gives p x) (hf : ∀ a, p a → Gives q (f a)) : Gives q (x >>= f) := by
  intro s b hresult
  rw [result_bind] at hresult
  cases hfirst : (x s).result with
  | ok a =>
      rw [hfirst] at hresult
      exact hf a (hx s a hfirst) _ b hresult
  | error reason =>
      rw [hfirst] at hresult
      cases hresult

theorem Action.gives_bind {σ α β : Type} {p : β → Prop} {x : Action σ α} {f : α → Action σ β}
    (hf : ∀ a, Gives p (f a)) : Gives p (x >>= f) :=
  Gives.bind (fun _ _ _ => trivial) fun a _ => hf a

theorem Action.gives_lift {σ α : Type} {p : α → Prop} {result : Except Violation α}
    (h : ∀ a, result = .ok a → p a) : Gives p (liftM result : Action σ α) := by
  intro s a hresult
  rw [run_lift_violation] at hresult
  cases result with
  | ok b => exact h a (congrArg Except.ok (Except.ok.inj hresult))
  | error assertion => cases hresult

theorem Action.gives_ite {σ α : Type} {p : α → Prop} {check : Prop} [Decidable check]
    {x rest : Action σ α} (hx : Gives p rest → Gives p x) (hrest : Gives p rest) :
    Gives p (if check then x else rest) := by
  split
  · exact hx hrest
  · exact hrest

theorem Action.gives_deny {σ α : Type} {p : α → Prop} (report : FaultReport) :
    Gives p (report.deny : Action σ α) :=
  fun _ _ hresult => nomatch hresult

theorem AddressSpace.gives_resolve (access : Access) (address : VirtualAddress) :
    Action.Gives (fun mapping => mapping.page = address.pageBase)
      (resolve access address.pageNumber) := by
  rw [resolve]
  refine Action.gives_bind fun t => Action.gives_ite (fun hrest =>
    Action.gives_bind fun _ => Action.gives_bind fun _ => hrest) ?_
  cases Region.deciding? t.1.regions address.pageNumber with
  | none => exact Action.gives_bind fun _ => Action.gives_deny _
  | some region =>
      refine Action.gives_ite (fun hrest =>
        Action.gives_bind fun _ => Action.gives_bind fun _ => hrest) ?_
      have hmapping : ∀ entry : PageEntry,
          Action.Gives (fun mapping => mapping.page = address.pageBase) (do
            let start ← address.pageNumber.start
            let entry ← entry.withDirty (entry.isDirty && region.permissions.writable)
            Mapping.new start entry : Action (AddressSpace × FramePool) Mapping) := by
        intro entry
        have hstart : Action.Gives (fun start => start = address.pageBase)
            (liftM address.pageNumber.start : Action (AddressSpace × FramePool) _) := by
          refine Action.gives_lift fun start hstart => ?_
          rw [address.start_pageNumber] at hstart
          exact (Except.ok.inj hstart).symm
        refine hstart.bind fun start hstart => Action.gives_bind fun marked =>
          Action.gives_lift fun mapping hmapping => ?_
        rw [hstart, Mapping.new_pageBase] at hmapping
        exact congrArg Mapping.page (Except.ok.inj hmapping).symm
      cases t.1.table.find? address.pageNumber with
      | some entry => exact Action.gives_bind hmapping
      | none => exact Action.gives_bind hmapping

section Calls

variable {n : Nat} (processor : Processor n)

theorem AddressSpace.changes_endLoad :
    Changes (fun _ => False) Prod.snd (AddressSpace.endLoad processor) := by
  rintro ⟨space, machines⟩ id
  cases hloading : space.loading with
  | false =>
      rw [endLoad_of_not_loading processor hloading]
      exact .refl _
  | true =>
      rw [endLoad_eq processor hloading]
      exact Changes.then_same processor.changes_invalidate.second (fun _ _ => rfl)
        (space.closed, machines) id

theorem Context.changes_activate :
    Changes (fun _ => False) Prod.snd (activate processor) :=
  processor.changes_invalidate.second.ifPresent (.of_same fun _ => rfl)

theorem Context.changes_deny {σ : Type} {allowed : Mapping → Prop} {part : σ → Machines n}
    (report : FaultReport) : Changes allowed part (report.deny : Action σ Unit) :=
  .of_same fun _ => rfl

theorem Context.changes_handleFault (access : Access) (word : UInt64) :
    Changes (fun mapping => ∃ address : VirtualAddress, address.word = word ∧
      mapping.page = address.pageBase) Prod.snd (handleFault processor access word) := by
  rw [handleFault]
  split
  · exact changes_deny _
  · split
    · exact changes_deny _
    · refine .ifPresent ?_ (changes_deny _)
      cases haddress : VirtualAddress.ofWord? word with
      | none => exact changes_deny _
      | some address =>
          refine .after_same (fun _ => rfl) fun s mapping hresult => ?_
          have hpage := AddressSpace.gives_resolve access address s.1 mapping hresult
          refine (processor.changes_install mapping).second.mono fun placed hplaced => ?_
          exact ⟨address, VirtualAddress.ofWord?_eq_some_iff.mp haddress, hplaced ▸ hpage⟩

theorem Context.changes_handleRawFault (code : UInt32) (word : UInt64) :
    Changes (fun mapping => ∃ address : VirtualAddress, address.word = word ∧
      mapping.page = address.pageBase) Prod.snd (handleRawFault processor code word) := by
  rw [handleRawFault]
  cases Access.ofCode code with
  | ok access => exact changes_handleFault processor access word
  | error reason => exact .of_same fun _ => rfl

end Calls

end DemandPaging
