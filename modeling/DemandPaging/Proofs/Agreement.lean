import DemandPaging.Fault
import DemandPaging.Proofs.Machine
import DemandPaging.Proofs.MachineCalls

/-!
Two runs side by side, in which frames may have other addresses. Machines resemble each other if
their caches hold the same mappings up to frames, and then a processor that installs a mapping or
empties the cache does the same in both. Faults end alike if what they find in the spaces does.
-/

namespace DemandPaging

/-- What a mapping says besides its frame: its page, and whether its entry is valid and dirty. -/
def Mapping.outline (mapping : Mapping) : VirtualAddress × Bool × Bool :=
  (mapping.page, mapping.entry.isValid, mapping.entry.isDirty)

/-- The mappings that were put into caches, each with its machine. -/
def installs (events : List Event) : List (Nat × VirtualAddress × Bool × Bool) :=
  events.filterMap fun
    | .inserting machine mapping => some (machine, mapping.outline)
    | _ => none

@[simp] theorem installs_nil : installs [] = [] := rfl

@[simp] theorem installs_append (events others : List Event) :
    installs (events ++ others) = installs events ++ installs others :=
  List.filterMap_append

/-- Two outcomes that agree: both are done, with results that are related, or both stop for the same
reason. The states that are left are related, and the same mappings were installed. -/
inductive Outcome.Agrees {σ τ α β : Type} (states : σ → τ → Prop) (results : α → β → Prop) :
    Outcome σ α → Outcome τ β → Prop
  | done {a : α} {b : β} {s : σ} {t : τ} {events others : List Event} (hresults : results a b)
      (hstates : states s t) (hinstalls : installs events = installs others) :
      Agrees states results ⟨.ok a, s, events⟩ ⟨.ok b, t, others⟩
  | stopped (reason : Stop) {s : σ} {t : τ} {events others : List Event} (hstates : states s t)
      (hinstalls : installs events = installs others) :
      Agrees states results ⟨.error reason, s, events⟩ ⟨.error reason, t, others⟩

namespace Outcome.Agrees

variable {σ τ α β : Type} {states : σ → τ → Prop} {results : α → β → Prop}

theorem state {one : Outcome σ α} {other : Outcome τ β} (h : Agrees states results one other) :
    states one.state other.state := by
  cases h <;> assumption

theorem installs_eq {one : Outcome σ α} {other : Outcome τ β}
    (h : Agrees states results one other) : installs one.events = installs other.events := by
  cases h <;> assumption

theorem result_eq {one : Outcome σ α} {other : Outcome τ α} (h : Agrees states Eq one other) :
    one.result = other.result := by
  cases h with
  | done hresults hstates hinstalls => rw [hresults]
  | stopped reason hstates hinstalls => rfl

theorem of_same {s : σ} {t : τ} (result : Except Stop α) (hstates : states s t)
    (events : List Event) : Agrees states Eq ⟨result, s, events⟩ ⟨result, t, events⟩ := by
  cases result with
  | ok a => exact .done rfl hstates rfl
  | error reason => exact .stopped reason hstates rfl

theorem within {ρ θ : Type} {wholes : ρ → θ → Prop} {one : Outcome σ α} {other : Outcome τ β}
    (h : Agrees states results one other) {s : ρ} {t : θ} (hwholes : wholes s t) :
    Agrees wholes results ⟨one.result, s, one.events⟩ ⟨other.result, t, other.events⟩ := by
  cases h with
  | done hresults hstates hinstalls => exact .done hresults hwholes hinstalls
  | stopped reason hstates hinstalls => exact .stopped reason hwholes hinstalls

theorem after {one : Outcome σ α} {other : Outcome τ β} (h : Agrees states results one other)
    {events others : List Event} (hinstalls : installs events = installs others) :
    Agrees states results (one.after events) (other.after others) := by
  cases h with
  | done hresults hstates hafter =>
      exact .done hresults hstates (by rw [installs_append, installs_append, hinstalls, hafter])
  | stopped reason hstates hafter =>
      exact .stopped reason hstates (by rw [installs_append, installs_append, hinstalls, hafter])

theorem bind {γ δ : Type} {next : γ → δ → Prop} {x : Action σ α} {y : Action τ β}
    {f : α → Action σ γ} {g : β → Action τ δ} {s : σ} {t : τ}
    (h : Agrees states results (x s) (y t))
    (hnext : ∀ a b s t, results a b → states s t → Agrees states next (f a s) (g b t)) :
    Agrees states next ((x >>= f) s) ((y >>= g) t) := by
  rw [Action.run_bind, Action.run_bind]
  generalize x s = one, y t = other at h
  cases h with
  | done hresults hstates hinstalls => exact (hnext _ _ _ _ hresults hstates).after hinstalls
  | stopped reason hstates hinstalls => exact .stopped reason hstates hinstalls

theorem bind_pure {γ : Type} {x : Action σ α} {y : Action τ α} {s : σ} {t : τ}
    (h : Agrees states Eq (x s) (y t)) (f : α → γ) :
    Agrees states Eq ((x >>= fun a => pure (f a)) s) ((y >>= fun a => pure (f a)) t) :=
  h.bind fun _ _ _ _ hresults hstates => .done (congrArg f hresults) hstates rfl

theorem ensuring {x : Action σ α} {y : Action τ β} {ending : Action σ Unit}
    {closing : Action τ Unit} {s : σ} {t : τ} (h : Agrees states results (x s) (y t))
    (hending : ∀ s t, states s t → Agrees states Eq (ending s) (closing t)) :
    Agrees states results (Action.ensuring x ending s) (Action.ensuring y closing t) := by
  have hended := hending _ _ h.state
  have hinstalls : installs ((x s).events ++ (ending (x s).state).events) =
      installs ((y t).events ++ (closing (y t).state).events) := by
    rw [installs_append, installs_append, h.installs_eq, hended.installs_eq]
  rw [Action.ensuring, Action.ensuring]
  generalize x s = one, y t = other at h hended hinstalls
  cases h with
  | done hresults hstates _ => exact .done hresults hended.state hinstalls
  | stopped reason hstates _ => exact .stopped reason hended.state hinstalls

end Outcome.Agrees

def Action.Quiet {σ α : Type} (x : Action σ α) : Prop :=
  ∀ s, installs (x s).events = []

theorem installs_machineCalls (events : List Event) :
    installs (machineCalls events) = installs events := by
  rw [installs, machineCalls, List.filterMap_filter, installs]
  apply congrArg (List.filterMap · events)
  funext event
  cases event <;> rfl

theorem Action.Aloof.quiet {σ α : Type} {x : Action σ α} (hx : x.Aloof) : x.Quiet := by
  intro s
  rw [← installs_machineCalls, hx s, installs_nil]

section Quiet

variable {σ τ α β : Type} {states : σ → τ → Prop} {results : α → β → Prop} {x : Action σ α}
  {y : Action τ β} {s next : σ} {t last : τ} {events others : List Event}

theorem Outcome.Agrees.of_quiet_ok (hx : x.Quiet) (hy : y.Quiet) {a : α} {b : β}
    (hone : x s = ⟨.ok a, next, events⟩) (hother : y t = ⟨.ok b, last, others⟩)
    (hresults : results a b) (hstates : states next last) : Agrees states results (x s) (y t) := by
  have hevents := hx s
  have hothers := hy t
  rw [hone] at hevents
  rw [hother] at hothers
  rw [hone, hother]
  exact .done hresults hstates (hevents.trans hothers.symm)

theorem Outcome.Agrees.of_quiet_error (hx : x.Quiet) (hy : y.Quiet) {reason : Stop}
    (hone : x s = ⟨.error reason, next, events⟩) (hother : y t = ⟨.error reason, last, others⟩)
    (hstates : states next last) : Agrees states results (x s) (y t) := by
  have hevents := hx s
  have hothers := hy t
  rw [hone] at hevents
  rw [hother] at hothers
  rw [hone, hother]
  exact .stopped reason hstates (hevents.trans hothers.symm)

end Quiet

section FindFinIdx

variable {α β : Type} {n : Nat}

private theorem map_val_findFinIdx? (p : α → Bool) (xs : Vector α n) :
    (xs.findFinIdx? p).map Fin.val = (xs.toList.map p).findIdx? id := by
  rw [List.findIdx?_map, Function.id_comp, List.findIdx?_eq_map_findFinIdx?_val,
    Vector.findFinIdx?_toList, Option.map_map]
  rfl

theorem findFinIdx?_of_map_eq {p : α → Bool} {q : β → Bool} {xs : Vector α n} {ys : Vector β n}
    (h : xs.toList.map p = ys.toList.map q) : xs.findFinIdx? p = ys.findFinIdx? q := by
  have hval : Function.Injective (Fin.val : Fin n → Nat) := fun _ _ => Fin.ext
  apply Option.map_injective hval
  rw [map_val_findFinIdx?, map_val_findFinIdx?, h]

end FindFinIdx

namespace Machine

/-- Two machines whose caches hold the same mappings in the same places, up to frames. -/
structure Resembles (machine other : Machine) : Prop where
  slots : other.slots.map (Option.map Mapping.outline) =
    machine.slots.map (Option.map Mapping.outline)
  level : other.level = machine.level
  seed : other.seed = machine.seed
  invalidations : other.invalidations = machine.invalidations

namespace Resembles

variable {machine other : Machine}

theorem refl (machine : Machine) : machine.Resembles machine :=
  ⟨rfl, rfl, rfl, rfl⟩

theorem withLevel (h : machine.Resembles other) (level : InterruptLevel) :
    (machine.withLevel level).Resembles (other.withLevel level) :=
  ⟨h.slots, rfl, h.seed, h.invalidations⟩

theorem emptied (h : machine.Resembles other) : machine.emptied.Resembles other.emptied :=
  ⟨rfl, h.level, h.seed, congrArg (· + 1) h.invalidations⟩

theorem isMasked_eq (h : machine.Resembles other) : other.isMasked = machine.isMasked := by
  rw [isMasked, h.level, isMasked]

theorem findFinIdx?_eq (h : machine.Resembles other) {p : Option Mapping → Bool}
    {q : Option (VirtualAddress × Bool × Bool) → Bool}
    (hp : ∀ slot, p slot = q (slot.map Mapping.outline)) :
    other.slots.findFinIdx? p = machine.slots.findFinIdx? p := by
  have hcells := congrArg (fun cells => cells.toList.map q) h.slots
  simp only [Vector.toList_map, List.map_map] at hcells
  apply findFinIdx?_of_map_eq
  rwa [show p = q ∘ Option.map Mapping.outline from funext hp]

theorem slotOf?_eq (h : machine.Resembles other) (page : VirtualAddress) :
    other.slotOf? page = machine.slotOf? page := by
  have hpage : ∀ slot : Option Mapping, (slot.any fun mapping => mapping.page = page) =
      (slot.map Mapping.outline).any fun outline => outline.1 = page := by
    rintro (- | mapping) <;> rfl
  exact h.findFinIdx?_eq hpage

theorem freeSlot?_eq (h : machine.Resembles other) : other.freeSlot? = machine.freeSlot? := by
  have hfree : ∀ slot : Option Mapping, slot.isNone = (slot.map Mapping.outline).isNone := by
    rintro (- | mapping) <;> rfl
  exact h.findFinIdx?_eq hfree

theorem fill (h : machine.Resembles other) (slot : CacheSlot) {mapping another : Mapping}
    (houtline : another.outline = mapping.outline) :
    (machine.fill slot mapping).Resembles (other.fill slot another) where
  slots := by
    rw [Machine.fill, Machine.fill, Vector.map_set, Vector.map_set, h.slots, Option.map_some,
      Option.map_some, houtline]
  level := h.level
  seed := h.seed
  invalidations := h.invalidations

theorem place (h : machine.Resembles other) {mapping another : Mapping}
    (houtline : another.outline = mapping.outline) :
    (machine.place mapping).Resembles (other.place another) := by
  have hpage : another.page = mapping.page := congrArg Prod.fst houtline
  rw [Machine.place, Machine.place, hpage, h.slotOf?_eq, h.freeSlot?_eq, h.seed]
  cases machine.slotOf? mapping.page with
  | some slot => exact h.fill slot houtline
  | none =>
      cases machine.freeSlot? with
      | some slot => exact h.fill slot houtline
      | none =>
          have hfilled := h.fill (victim (nextSeed machine.seed)) houtline
          exact ⟨hfilled.slots, h.level, rfl, h.invalidations⟩

end Resembles

end Machine

namespace Machines

variable {n : Nat} {machines others : Machines n}

def Resemble (machines others : Machines n) : Prop :=
  ∀ id, (machines.get id).Resembles (others.get id)

theorem Resemble.refl (machines : Machines n) : machines.Resemble machines :=
  fun id => .refl (machines.get id)

theorem Resemble.put (h : machines.Resemble others) (id : Fin n) {machine other : Machine}
    (hmachine : machine.Resembles other) :
    (machines.put id machine).Resemble (others.put id other) := by
  intro found
  by_cases hid : found = id
  · rw [hid, get_put_self, get_put_self]
    exact hmachine
  · rw [get_put_of_ne _ hid, get_put_of_ne _ hid]
    exact h found

section Steps

variable (h : machines.Resemble others) (id : Fin n)

include h

theorem agrees_attemptAt {f g : Machine → Except Violation Machine}
    (hfg : (∃ machine other, f (machines.get id) = .ok machine ∧ g (others.get id) = .ok other ∧
        machine.Resembles other) ∨
      ∃ assertion, f (machines.get id) = .error assertion ∧ g (others.get id) = .error assertion) :
    Outcome.Agrees Resemble Eq (attemptAt id f machines) (attemptAt id g others) := by
  rw [attemptAt, attemptAt, Action.run_attempt, Action.run_attempt]
  rcases hfg with ⟨machine, other, hf, hg, hmachine⟩ | ⟨assertion, hf, hg⟩
  · rw [hf, hg]
    exact .done rfl (h.put id hmachine) rfl
  · rw [hf, hg]
    exact .stopped (.violated assertion) h rfl

theorem agrees_mask : Outcome.Agrees Resemble Eq (mask id machines) (mask id others) := by
  have hmasked := h.put id ((h id).withLevel .masked)
  have hmask : ∀ machines : Machines n, mask id machines =
      ⟨.ok (machines.get id).level,
        machines.put id ((machines.get id).withLevel .masked),
        [.masked id.val (machines.get id).level]⟩ := fun _ => rfl
  rw [hmask, hmask]
  exact .done (h id).level.symm hmasked rfl

theorem agrees_restore (level : InterruptLevel) :
    Outcome.Agrees Resemble Eq (restore id level machines) (restore id level others) :=
  .done rfl (h.put id ((h id).withLevel level)) rfl

theorem agrees_insert {mapping another : Mapping} (houtline : another.outline = mapping.outline) :
    Outcome.Agrees Resemble Eq (insert id mapping machines) (insert id another others) := by
  refine (agrees_attemptAt h id ?_).after ?_
  · simp only [Machine.insert, (h id).isMasked_eq]
    cases (machines.get id).isMasked with
    | true => exact .inl ⟨_, _, rfl, rfl, (h id).place houtline⟩
    | false => exact .inr ⟨_, rfl, rfl⟩
  · change [(id.val, mapping.outline)] = [(id.val, another.outline)]
    rw [houtline]

theorem agrees_invalidate :
    Outcome.Agrees Resemble Eq (invalidate id machines) (invalidate id others) := by
  refine (agrees_attemptAt h id ?_).after rfl
  simp only [Machine.invalidate, (h id).isMasked_eq]
  cases (machines.get id).isMasked with
  | true => exact .inl ⟨_, _, rfl, rfl, (h id).emptied⟩
  | false => exact .inr ⟨_, rfl, rfl⟩

end Steps

end Machines

namespace Processor

variable {n : Nat} (processor : Processor n) {machines others : Machines n}
  (h : machines.Resemble others)

include h

theorem agrees_whileMasked {x y : Action (Machines n) Unit}
    (hxy : ∀ machines others, Machines.Resemble machines others →
      Outcome.Agrees Machines.Resemble Eq (x machines) (y others)) :
    Outcome.Agrees Machines.Resemble Eq (processor.whileMasked x machines)
      (processor.whileMasked y others) := by
  have htake := (Machines.agrees_mask h processor.interrupts).bind_pure
    (Guard.mk processor.interrupts)
  refine htake.bind fun guard _ masked maskedOthers hguard hmasked => ?_
  subst hguard
  exact (hxy masked maskedOthers hmasked).ensuring fun _ _ hended =>
    Machines.agrees_restore hended guard.machine guard.prior

theorem agrees_install {mapping another : Mapping} (houtline : another.outline = mapping.outline) :
    Outcome.Agrees Machines.Resemble Eq (processor.install mapping machines)
      (processor.install another others) :=
  (agrees_whileMasked processor h fun _ _ hmasked =>
    Machines.agrees_insert hmasked processor.cache houtline).after rfl

theorem agrees_invalidate :
    Outcome.Agrees Machines.Resemble Eq (processor.invalidate machines)
      (processor.invalidate others) :=
  agrees_whileMasked processor h fun _ _ hmasked =>
    Machines.agrees_invalidate hmasked processor.cache

end Processor

namespace Context

variable {n : Nat} {spaces : AddressSpace × FramePool → AddressSpace × FramePool → Prop}
  {caches : Machines n → Machines n → Prop} {mappings : Mapping → Mapping → Prop}

/-- Contexts with related spaces, beside related machines. -/
def Related (spaces : AddressSpace × FramePool → AddressSpace × FramePool → Prop)
    (caches : Machines n → Machines n → Prop) (p q : Context × Machines n) : Prop :=
  (∃ one other, p.1 = some one ∧ q.1 = some other ∧ spaces one other) ∧ caches p.2 q.2

theorem agrees_deny {σ τ : Type} {states : σ → τ → Prop} {s : σ} {t : τ} (h : states s t)
    (report : FaultReport) :
    Outcome.Agrees states (Eq : Unit → Unit → Prop) (report.deny s) (report.deny t) :=
  .stopped (.refused .protectionFault) h rfl

variable {one other : AddressSpace × FramePool} {machines others : Machines n}
  (processor : Processor n) {access : Access}
  (hinstall : ∀ mapping another, mappings mapping another →
    Outcome.Agrees caches Eq (processor.install mapping machines)
      (processor.install another others))

include hinstall

theorem agrees_serve (hcaches : caches machines others) {address : VirtualAddress}
    (hresolve : Outcome.Agrees spaces mappings (AddressSpace.resolve access address.pageNumber one)
      (AddressSpace.resolve access address.pageNumber other)) :
    Outcome.Agrees (fun p q => spaces p.1 q.1 ∧ caches p.2 q.2) Eq
      (serve processor access address.pageNumber (one, machines))
      (serve processor access address.pageNumber (other, others)) := by
  rw [serve, Action.run_bind, Action.run_bind, Action.run_first, Action.run_first]
  generalize AddressSpace.resolve access address.pageNumber one = found,
    AddressSpace.resolve access address.pageNumber other = another at hresolve
  cases hresolve with
  | done hmappings hspaces hinstalls =>
      have hinstalled := hinstall _ _ hmappings
      exact (hinstalled.within ⟨hspaces, hinstalled.state⟩).after hinstalls
  | stopped reason hspaces hinstalls => exact .stopped reason ⟨hspaces, hcaches⟩ hinstalls

theorem agrees_handleFault (hspaces : spaces one other) (hcaches : caches machines others)
    (word : UInt64)
    (hresolve : ∀ address, VirtualAddress.ofWord? word = some address →
      Outcome.Agrees spaces mappings (AddressSpace.resolve access address.pageNumber one)
        (AddressSpace.resolve access address.pageNumber other)) :
    Outcome.Agrees (Related spaces caches) Eq
      (handleFault processor access word (some one, machines))
      (handleFault processor access word (some other, others)) := by
  have hrelated : Related spaces caches (some one, machines) (some other, others) :=
    ⟨⟨one, other, rfl, rfl, hspaces⟩, hcaches⟩
  rw [handleFault]
  by_cases haccess : access = .readOnlyViolation
  · rw [if_pos haccess]
    exact agrees_deny hrelated _
  · rw [if_neg haccess]
    by_cases hword : word = 0
    · rw [if_pos hword]
      exact agrees_deny hrelated _
    · rw [if_neg hword]
      cases haddress : VirtualAddress.ofWord? word with
      | none => exact .stopped (.refused .protectionFault) hrelated rfl
      | some address =>
          have hserve := agrees_serve processor hinstall hcaches (hresolve address haddress)
          exact hserve.within ⟨⟨_, _, rfl, rfl, hserve.state.1⟩, hserve.state.2⟩

end Context

end DemandPaging
