import DemandPaging.Fault
import DemandPaging.Proofs.Declarations
import DemandPaging.Proofs.MachineCalls

/-!
Interrupt levels around the writes of a cache. A processor masks interrupts, writes the cache once
and puts the level back, also if the write fails because the cache is that of another machine. So
no operation of a processor leaves a level changed.
-/

namespace DemandPaging

inductive CacheWrite
  | insert (mapping : Mapping)
  | invalidate

namespace CacheWrite

variable {n : Nat}

def perform (cache : Fin n) : CacheWrite → Action (Machines n) Unit
  | insert mapping => Machines.insert cache mapping
  | invalidate => Machines.invalidate cache

def event (cache : Fin n) : CacheWrite → Event
  | insert mapping => .inserting cache.val mapping
  | invalidate => .invalidating cache.val

theorem perform_of_enabled (write : CacheWrite) {cache : Fin n} {machines : Machines n}
    (h : (machines.get cache).level = .enabled) :
    write.perform cache machines =
      ⟨.error (.violated .interruptsEnabled), machines, [write.event cache]⟩ := by
  cases write with
  | insert mapping => exact Machines.insert_of_enabled h mapping
  | invalidate => exact Machines.invalidate_of_enabled h

/-- A write is done if interrupts are masked where it happens, and no level changes. Otherwise the
write fails and nothing changes. -/
theorem perform_cases (write : CacheWrite) (cache : Fin n) (machines : Machines n) :
    (∃ machine, machine.level = (machines.get cache).level ∧
        write.perform cache machines =
          ⟨.ok (), machines.put cache machine, [write.event cache]⟩) ∨
      write.perform cache machines =
        ⟨.error (.violated .interruptsEnabled), machines, [write.event cache]⟩ := by
  cases hlevel : (machines.get cache).level with
  | masked =>
      left
      cases write with
      | insert mapping =>
          exact ⟨_, (Machine.level_place _ mapping).trans hlevel,
            Machines.insert_of_masked hlevel mapping⟩
      | invalidate =>
          exact ⟨(machines.get cache).emptied, hlevel, Machines.invalidate_of_masked hlevel⟩
  | enabled => exact .inr (write.perform_of_enabled hlevel)

theorem level_perform (write : CacheWrite) (cache : Fin n) (machines : Machines n) (id : Fin n) :
    ((write.perform cache machines).state.get id).level = (machines.get id).level := by
  rcases write.perform_cases cache machines with ⟨machine, hlevel, hwrite⟩ | hwrite
  · rw [hwrite]
    by_cases hid : id = cache
    · rw [hid, Machines.get_put_self, hlevel]
    · rw [Machines.get_put_of_ne _ hid]
  · rw [hwrite]

end CacheWrite

namespace Processor

variable {n : Nat}

/-- One write of the cache of a processor. It is issued while the interrupts of the processor are
masked, which they are for this write alone, and then the level from before is put back. The
operation that has issued it ends as the write does. -/
structure Issues (processor : Processor n) (write : CacheWrite) (before after : Machines n)
    (result : Except Stop Unit) (events : List Event) : Prop where
  calls : machineCalls events =
    [.masked processor.interrupts.val (before.get processor.interrupts).level,
      write.event processor.cache,
      .restoring processor.interrupts.val (before.get processor.interrupts).level]
  written : after =
    (write.perform processor.cache (before.atLevel processor.interrupts .masked)).state.atLevel
      processor.interrupts (before.get processor.interrupts).level
  ended : result =
    (write.perform processor.cache (before.atLevel processor.interrupts .masked)).result

/-- How an operation treats machines. All levels are the same before and after, however it ends.
Either it makes no call on a machine and leaves them as they are, or it issues one write. If it ends
because a cache was written with interrupts enabled, nothing has changed. -/
structure KeepsLevels (processor : Processor n) (before after : Machines n)
    (result : Except Stop Unit) (events : List Event) : Prop where
  level : ∀ id, (after.get id).level = (before.get id).level
  calls : machineCalls events = [] ∧ after = before ∨
    ∃ write, processor.Issues write before after result events
  unwound : result = .error (.violated .interruptsEnabled) → after = before

variable {processor : Processor n}

theorem Issues.keepsLevels {write : CacheWrite} {before after : Machines n}
    {events : List Event} {result : Except Stop Unit}
    (h : processor.Issues write before after result events) :
    processor.KeepsLevels before after result events where
  level := by
    intro id
    rw [h.written, Machines.level_atLevel, CacheWrite.level_perform, Machines.level_atLevel]
    split
    · rename_i heq
      rw [heq]
    · rfl
  calls := .inr ⟨write, h⟩
  unwound := by
    intro hviolated
    rw [h.ended] at hviolated
    rcases write.perform_cases processor.cache (before.atLevel processor.interrupts .masked) with
      ⟨machine, -, hwrite⟩ | hwrite
    · rw [hwrite] at hviolated
      cases hviolated
    · rw [h.written, hwrite]
      exact before.atLevel_atLevel processor.interrupts .masked

end Processor

/-- An operation that treats the machines in a part of its state as `Processor.KeepsLevels` says,
in every state. -/
def Action.MasksAround {n : Nat} {σ : Type} (processor : Processor n) (part : σ → Machines n)
    (x : Action σ Unit) : Prop :=
  ∀ s, processor.KeepsLevels (part s) (part (x s).state) (x s).result (x s).events

namespace Action.MasksAround

variable {n : Nat} {σ α : Type} {processor : Processor n} {part : σ → Machines n}

theorem of_aloof {x : Action σ Unit} (hx : x.Aloof) (hpart : ∀ s, part (x s).state = part s) :
    MasksAround processor part x := by
  intro s
  rw [hpart s]
  exact ⟨fun _ => rfl, .inl ⟨hx s, rfl⟩, fun _ => rfl⟩

theorem after_aloof {x : Action σ α} {f : α → Action σ Unit} (hx : x.Aloof)
    (hpart : ∀ s, part (x s).state = part s) (hf : ∀ a, MasksAround processor part (f a)) :
    MasksAround processor part (x >>= f) := by
  intro s
  have hevents := hx s
  have hsame := hpart s
  rw [run_bind]
  rcases hrun : x s with ⟨reason | a, t, events⟩
  · rw [hrun] at hevents hsame
    rw [hsame]
    exact ⟨fun _ => rfl, .inl ⟨hevents, rfl⟩, fun _ => rfl⟩
  · rw [hrun] at hevents hsame
    have hcalls : machineCalls (events ++ (f a t).events) = machineCalls (f a t).events := by
      rw [machineCalls_append, hevents, List.nil_append]
    have hnext := hf a t
    rw [hsame] at hnext
    refine ⟨hnext.level, ?_, hnext.unwound⟩
    rcases hnext.calls with ⟨hnone, hafter⟩ | ⟨write, hissues⟩
    · exact .inl ⟨hcalls.trans hnone, hafter⟩
    · exact .inr ⟨write, hcalls.trans hissues.calls, hissues.written, hissues.ended⟩

theorem log_after {x : Action σ Unit} (hx : MasksAround processor part x) (record : Record) :
    MasksAround processor part (do x; log record) := by
  intro s
  have hs := hx s
  rw [run_bind]
  rcases hrun : x s with ⟨reason | a, t, events⟩
  · rw [hrun] at hs
    exact hs
  · rw [hrun] at hs
    have hcalls : machineCalls (events ++ [.logged record]) = machineCalls events := by
      rw [machineCalls_append]
      exact List.append_nil _
    refine ⟨hs.level, ?_, nofun⟩
    rcases hs.calls with ⟨hnone, hafter⟩ | ⟨write, hissues⟩
    · exact .inl ⟨hcalls.trans hnone, hafter⟩
    · exact .inr ⟨write, hcalls.trans hissues.calls, hissues.written, hissues.ended⟩

theorem second {x : Action (Machines n) Unit} (hx : MasksAround processor id x) :
    MasksAround processor Prod.snd (Action.second x : Action (σ × Machines n) Unit) :=
  fun s => hx s.2

theorem ifPresent {found : Action (σ × Machines n) Unit} {missing : Action (Machines n) Unit}
    (hfound : MasksAround processor Prod.snd found) (hmissing : MasksAround processor id missing) :
    MasksAround processor Prod.snd (Action.ifPresent found missing) := by
  rintro ⟨- | s, machines⟩
  · exact hmissing machines
  · exact hfound (s, machines)

end Action.MasksAround

open DemandPaging.Action (MasksAround)

section Calls

variable {n : Nat} (processor : Processor n)

theorem Processor.issues_whileMasked (write : CacheWrite) (machines : Machines n) :
    processor.Issues write machines
      (processor.whileMasked (write.perform processor.cache) machines).state
      (processor.whileMasked (write.perform processor.cache) machines).result
      (processor.whileMasked (write.perform processor.cache) machines).events := by
  have hevents : (write.perform processor.cache
      (machines.atLevel processor.interrupts .masked)).events =
        [write.event processor.cache] := by
    rcases write.perform_cases processor.cache _ with ⟨machine, -, hwrite⟩ | hwrite <;> rw [hwrite]
  rw [processor.whileMasked_eq]
  refine ⟨?_, rfl, rfl⟩
  change machineCalls (_ :: ((write.perform processor.cache
    (machines.atLevel processor.interrupts .masked)).events ++ _)) = _
  rw [hevents]
  cases write <;> rfl

theorem Processor.issues_install (mapping : Mapping) (machines : Machines n) :
    processor.Issues (.insert mapping) machines (processor.install mapping machines).state
      (processor.install mapping machines).result
      (processor.install mapping machines).events := by
  have h := processor.issues_whileMasked (.insert mapping) machines
  exact ⟨h.calls, h.written, h.ended⟩

theorem Processor.issues_invalidate (machines : Machines n) :
    processor.Issues .invalidate machines (processor.invalidate machines).state
      (processor.invalidate machines).result (processor.invalidate machines).events :=
  processor.issues_whileMasked .invalidate machines

theorem Processor.masksAround_install (mapping : Mapping) :
    MasksAround processor id (processor.install mapping) :=
  fun machines => (processor.issues_install mapping machines).keepsLevels

theorem Processor.masksAround_invalidate : MasksAround processor id processor.invalidate :=
  fun machines => (processor.issues_invalidate machines).keepsLevels

theorem AddressSpace.masksAround_endLoad :
    MasksAround processor Prod.snd (AddressSpace.endLoad processor) := by
  rintro ⟨space, machines⟩
  cases hloading : space.loading with
  | false =>
      rw [endLoad_of_not_loading processor hloading]
      exact ⟨fun _ => rfl, .inl ⟨rfl, rfl⟩, fun _ => rfl⟩
  | true =>
      rw [endLoad_eq processor hloading]
      exact processor.masksAround_invalidate.second.log_after .loadFinished (space.closed, machines)

theorem Context.masksAround_activate : MasksAround processor Prod.snd (activate processor) :=
  processor.masksAround_invalidate.second.ifPresent (.of_aloof (Action.aloof_pure ()) fun _ => rfl)

theorem Context.masksAround_serve (access : Access) (page : PageNumber) :
    MasksAround processor Prod.snd (serve processor access page) :=
  .after_aloof (AddressSpace.aloof_resolve access page).on (fun _ => rfl) fun mapping =>
    (processor.masksAround_install mapping).second

theorem Context.masksAround_deny {σ : Type} {part : σ → Machines n} (report : FaultReport) :
    MasksAround processor part (report.deny : Action σ Unit) :=
  .of_aloof (Action.aloof_deny report) fun _ => rfl

theorem Context.masksAround_handleFault (access : Access) (word : UInt64) :
    MasksAround processor Prod.snd (handleFault processor access word) := by
  rw [handleFault]
  split
  · exact masksAround_deny processor _
  · split
    · exact masksAround_deny processor _
    · refine .ifPresent ?_ (masksAround_deny processor _)
      cases VirtualAddress.ofWord? word with
      | none => exact masksAround_deny processor _
      | some address => exact masksAround_serve processor access address.pageNumber

theorem Context.masksAround_handleRawFault (code : UInt32) (word : UInt64) :
    MasksAround processor Prod.snd (handleRawFault processor code word) := by
  rw [handleRawFault]
  cases Access.ofCode code with
  | ok access => exact masksAround_handleFault processor access word
  | error reason =>
      exact .of_aloof ((Action.aloof_log _).bind fun _ => Action.aloof_stop _) fun _ => rfl

/-- Whichever machines a processor has for its cache and for its interrupts, and whatever their
levels are: to install a mapping and to empty the cache is to issue that one write, and these two,
to activate or to deactivate a space, to end a load phase and to handle a fault all keep the levels
of interrupts, in every state and however they end. -/
theorem masksAround_of_processor (processor : Processor n) :
    (∀ mapping machines, processor.Issues (.insert mapping) machines
        (processor.install mapping machines).state (processor.install mapping machines).result
        (processor.install mapping machines).events) ∧
      (∀ machines, processor.Issues .invalidate machines (processor.invalidate machines).state
        (processor.invalidate machines).result (processor.invalidate machines).events) ∧
      (∀ mapping, MasksAround processor id (processor.install mapping)) ∧
      MasksAround processor id processor.invalidate ∧
      MasksAround processor Prod.snd (Context.activate processor) ∧
      MasksAround processor Prod.snd (Context.deactivate processor) ∧
      MasksAround processor Prod.snd (AddressSpace.endLoad processor) ∧
      (∀ access word, MasksAround processor Prod.snd
        (Context.handleFault processor access word)) ∧
      ∀ code word, MasksAround processor Prod.snd (Context.handleRawFault processor code word) :=
  ⟨processor.issues_install, processor.issues_invalidate, processor.masksAround_install,
    processor.masksAround_invalidate, Context.masksAround_activate processor,
    Context.masksAround_activate processor, AddressSpace.masksAround_endLoad processor,
    Context.masksAround_handleFault processor, Context.masksAround_handleRawFault processor⟩

end Calls

end DemandPaging
