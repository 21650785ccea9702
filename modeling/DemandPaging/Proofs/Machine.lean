import DemandPaging.Processor

namespace DemandPaging

namespace Machine

private theorem find?_set {α : Type} {p : α → Bool} {item : α} {cells : List (Option α)}
    {place : Nat} (hplace : place < cells.length) (hitem : p item = true)
    (hbefore : ∀ other < place, ∀ old, cells[other]? = some (some old) → p old = false) :
    ((cells.set place (some item)).filterMap id).find? p = some item := by
  induction cells generalizing place with
  | nil => exact absurd hplace (Nat.not_lt_zero _)
  | cons cell rest ih =>
      rcases place with - | place
      · exact List.find?_cons_of_pos hitem
      · have hrest := ih (Nat.lt_of_succ_lt_succ hplace)
          fun other hother old hold => hbefore (other + 1) (Nat.succ_lt_succ hother) old hold
        rcases cell with - | old
        · exact hrest
        · have hfirst := hbefore 0 (Nat.succ_pos place) old rfl
          exact (List.find?_cons_of_neg (by simp [hfirst])).trans hrest

theorem lookup_fill {machine : Machine} {slot : CacheSlot} {mapping : Mapping}
    {address : VirtualAddress} (hpage : mapping.page = address.pageBase)
    (hbefore : ∀ other < slot.val, ∀ old, machine.slots.toList[other]? = some (some old) →
      old.page ≠ mapping.page) :
    (machine.fill slot mapping).lookup address = some mapping := by
  rw [lookup, fill, Vector.toList_set]
  apply find?_set
  · simp
  · simpa using hpage
  · intro other hother old hold
    simpa [← hpage] using hbefore other hother old hold

theorem ne_of_slotOf?_eq_none {machine : Machine} {page : VirtualAddress}
    (h : machine.slotOf? page = none)
    {place : Nat} {old : Mapping} (hold : machine.slots.toList[place]? = some (some old)) :
    old.page ≠ page := by
  rw [slotOf?, Vector.findFinIdx?_eq_none_iff] at h
  have hmem : some old ∈ machine.slots := by
    rw [← Vector.mem_toList_iff]
    exact List.mem_of_getElem? hold
  simpa using h _ hmem

theorem ne_of_lt_slotOf? {machine : Machine} {page : VirtualAddress} {slot : CacheSlot}
    (h : machine.slotOf? page = some slot) {place : Nat} (hplace : place < slot.val) {old : Mapping}
    (hold : machine.slots.toList[place]? = some (some old)) : old.page ≠ page := by
  have hcells : machine.slots.toList.findFinIdx?
        (fun cell => cell.any fun mapping => mapping.page = page) =
      some (slot.cast (by simp)) := by
    rw [Vector.findFinIdx?_toList]
    change (machine.slotOf? page).map _ = _
    rw [h]
    rfl
  obtain ⟨hlength, hcell⟩ := List.getElem?_eq_some_iff.mp hold
  have hne := (List.findFinIdx?_eq_some_iff.mp hcells).2 ⟨place, hlength⟩ hplace
  simpa [hcell] using hne

theorem lookup_place (machine : Machine) {mapping : Mapping} {address : VirtualAddress}
    (hpage : mapping.page = address.pageBase) :
    (machine.place mapping).lookup address = some mapping := by
  rw [place]
  cases hslot : machine.slotOf? mapping.page with
  | some slot => exact lookup_fill hpage fun other hother old => ne_of_lt_slotOf? hslot hother
  | none =>
      cases machine.freeSlot? with
      | some slot => exact lookup_fill hpage fun other _ old => ne_of_slotOf?_eq_none hslot
      | none =>
          exact lookup_fill hpage fun other _ old => ne_of_slotOf?_eq_none hslot

def withLevel (machine : Machine) (level : InterruptLevel) : Machine :=
  { machine with level }

theorem place_withLevel (machine : Machine) (level : InterruptLevel) (mapping : Mapping) :
    (machine.withLevel level).place mapping = (machine.place mapping).withLevel level := by
  have hslot : (machine.withLevel level).slotOf? mapping.page = machine.slotOf? mapping.page := rfl
  have hfree : (machine.withLevel level).freeSlot? = machine.freeSlot? := rfl
  rw [place, place, hslot, hfree]
  cases machine.slotOf? mapping.page with
  | some slot => rfl
  | none => cases machine.freeSlot? <;> rfl

theorem level_place (machine : Machine) (mapping : Mapping) :
    (machine.place mapping).level = machine.level := by
  rw [place]
  split
  · rfl
  · split <;> rfl

theorem withLevel_place_withLevel (machine : Machine) (level : InterruptLevel) (mapping : Mapping) :
    ((machine.withLevel level).place mapping).withLevel machine.level = machine.place mapping := by
  rw [place_withLevel, ← level_place machine mapping]
  rfl

theorem mem_slots_fill {machine : Machine} {slot : CacheSlot} {mapping old : Mapping}
    (h : some old ∈ (machine.fill slot mapping).slots) :
    old = mapping ∨ some old ∈ machine.slots := by
  have hmem : some old ∈ machine.slots.set slot.val (some mapping) slot.isLt := h
  rcases Vector.mem_or_eq_of_mem_set hmem with hold | hnew
  · exact .inr hold
  · exact .inl (Option.some.inj hnew)

theorem mem_slots_place {machine : Machine} {mapping old : Mapping}
    (h : some old ∈ (machine.place mapping).slots) : old = mapping ∨ some old ∈ machine.slots := by
  rw [place] at h
  split at h
  · exact mem_slots_fill h
  · split at h <;> exact mem_slots_fill h

theorem invalidations_place (machine : Machine) (mapping : Mapping) :
    (machine.place mapping).invalidations = machine.invalidations := by
  rw [place]
  split
  · rfl
  · split <;> rfl

def emptied (machine : Machine) : Machine :=
  { machine with
    slots := Vector.replicate Layout.cacheSlots none
    invalidations := machine.invalidations + 1 }

theorem not_mem_slots_emptied (machine : Machine) (mapping : Mapping) :
    some mapping ∉ machine.emptied.slots := by
  simp [emptied]

end Machine

namespace Machines

variable {n : Nat}

@[simp] theorem get_put_self (machines : Machines n) (id : Fin n) (machine : Machine) :
    (machines.put id machine).get id = machine :=
  Vector.getElem_set_self id.isLt

theorem get_put_of_ne (machines : Machines n) {id other : Fin n} (h : other ≠ id)
    (machine : Machine) : (machines.put id machine).get other = machines.get other :=
  Vector.getElem_set_ne _ _ fun heq => h (Fin.ext heq.symm)

theorem put_get_self (machines : Machines n) (id : Fin n) :
    machines.put id (machines.get id) = machines :=
  Vector.set_getElem_self id.isLt

@[simp] theorem put_put (machines : Machines n) (id : Fin n) (machine other : Machine) :
    (machines.put id machine).put id other = machines.put id other := by
  simp [put]

def atLevel (machines : Machines n) (id : Fin n) (level : InterruptLevel) : Machines n :=
  machines.put id ((machines.get id).withLevel level)

theorem level_atLevel (machines : Machines n) (id other : Fin n) (level : InterruptLevel) :
    ((machines.atLevel id level).get other).level =
      if other = id then level else (machines.get other).level := by
  split
  · rename_i heq
    rw [heq, atLevel, get_put_self]
    rfl
  · rename_i hne
    rw [atLevel, get_put_of_ne _ hne]

theorem level_atLevel_self (machines : Machines n) (id : Fin n) (level : InterruptLevel) :
    ((machines.atLevel id level).get id).level = level := by
  rw [level_atLevel, if_pos rfl]

theorem slots_atLevel_self (machines : Machines n) (id : Fin n) (level : InterruptLevel) :
    ((machines.atLevel id level).get id).slots = (machines.get id).slots := by
  rw [atLevel, get_put_self]
  rfl

theorem atLevel_atLevel (machines : Machines n) (id : Fin n) (level : InterruptLevel) :
    (machines.atLevel id level).atLevel id (machines.get id).level = machines := by
  rw [atLevel, atLevel, get_put_self, put_put]
  exact put_get_self machines id

theorem insert_of_masked {machines : Machines n} {id : Fin n}
    (h : (machines.get id).level = .masked) (mapping : Mapping) :
    insert id mapping machines =
      ⟨.ok (), machines.put id ((machines.get id).place mapping), [.inserting id.val mapping]⟩ := by
  have hplace : (machines.get id).insert mapping = .ok ((machines.get id).place mapping) := by
    rw [Machine.insert, Machine.isMasked, h]
    rfl
  have hattempt : attemptAt id (·.insert mapping) machines =
      ⟨.ok (), machines.put id ((machines.get id).place mapping), []⟩ := by
    rw [attemptAt, Action.run_attempt, hplace]
    rfl
  rw [insert, Action.bind_of_ok (Action.run_emit _ machines), hattempt]
  rfl

theorem insert_of_enabled {machines : Machines n} {id : Fin n}
    (h : (machines.get id).level = .enabled) (mapping : Mapping) :
    insert id mapping machines =
      ⟨.error (.violated .interruptsEnabled), machines, [.inserting id.val mapping]⟩ := by
  have hinsert : (machines.get id).insert mapping = .error .interruptsEnabled := by
    rw [Machine.insert, Machine.isMasked, h]
    rfl
  have hattempt : attemptAt id (·.insert mapping) machines =
      ⟨.error (.violated .interruptsEnabled), machines, []⟩ := by
    rw [attemptAt, Action.run_attempt, hinsert]
    rfl
  rw [insert, Action.bind_of_ok (Action.run_emit _ machines), hattempt]
  rfl

theorem invalidate_of_masked {machines : Machines n} {id : Fin n}
    (h : (machines.get id).level = .masked) :
    invalidate id machines =
      ⟨.ok (), machines.put id (machines.get id).emptied, [.invalidating id.val]⟩ := by
  have hempty : (machines.get id).invalidate = .ok (machines.get id).emptied := by
    have hmasked : (machines.get id).isMasked = true := decide_eq_true h
    rw [Machine.invalidate, hmasked]
    rfl
  have hattempt : attemptAt id Machine.invalidate machines =
      ⟨.ok (), machines.put id (machines.get id).emptied, []⟩ := by
    rw [attemptAt, Action.run_attempt, hempty]
    rfl
  rw [invalidate, Action.bind_of_ok (Action.run_emit _ machines), hattempt]
  rfl

theorem invalidate_of_enabled {machines : Machines n} {id : Fin n}
    (h : (machines.get id).level = .enabled) :
    invalidate id machines =
      ⟨.error (.violated .interruptsEnabled), machines, [.invalidating id.val]⟩ := by
  have hempty : (machines.get id).invalidate = .error .interruptsEnabled := by
    rw [Machine.invalidate, Machine.isMasked, h]
    rfl
  have hattempt : attemptAt id Machine.invalidate machines =
      ⟨.error (.violated .interruptsEnabled), machines, []⟩ := by
    rw [attemptAt, Action.run_attempt, hempty]
    rfl
  rw [invalidate, Action.bind_of_ok (Action.run_emit _ machines), hattempt]
  rfl

end Machines

namespace Processor

variable {n : Nat}

/-- What is done while interrupts are masked is done where they are, and then the level from before
is put back, however it has ended. -/
theorem whileMasked_eq (processor : Processor n) (x : Action (Machines n) Unit)
    (machines : Machines n) :
    processor.whileMasked x machines =
      ⟨(x (machines.atLevel processor.interrupts .masked)).result,
        (x (machines.atLevel processor.interrupts .masked)).state.atLevel processor.interrupts
          (machines.get processor.interrupts).level,
        .masked processor.interrupts.val (machines.get processor.interrupts).level ::
          ((x (machines.atLevel processor.interrupts .masked)).events ++
            [.restoring processor.interrupts.val
              (machines.get processor.interrupts).level])⟩ := by
  have htake : processor.maskInterrupts machines =
      ⟨.ok ⟨processor.interrupts, (machines.get processor.interrupts).level⟩,
        machines.atLevel processor.interrupts .masked,
        [.masked processor.interrupts.val (machines.get processor.interrupts).level]⟩ := rfl
  rw [whileMasked, Action.bind_of_ok htake, Action.ensuring]
  rfl

theorem result_install_ne_refused (processor : Processor n) (mapping : Mapping)
    (machines : Machines n) (reason : Refusal) :
    (processor.install mapping machines).result ≠ .error (.refused reason) := by
  rw [install, Action.bind_of_ok (Action.run_log _ machines), Outcome.result_after, whileMasked,
    Action.result_bind]
  change (Machines.insert processor.cache mapping _).result ≠ _
  rw [Machines.insert, Action.bind_of_ok (Action.run_emit _ _), Outcome.result_after,
    Machines.attemptAt, Action.run_attempt]
  split <;> simp

theorem install_of_same {processor : Processor n} (hsame : processor.cache = processor.interrupts)
    (mapping : Mapping) (machines : Machines n) :
    ∃ events, processor.install mapping machines =
      ⟨.ok (), machines.put processor.cache ((machines.get processor.cache).place mapping),
        events⟩ := by
  rcases processor with ⟨cache, interrupts⟩
  obtain rfl : cache = interrupts := hsame
  have hmachine := Machines.get_put_self machines cache ((machines.get cache).withLevel .masked)
  have hinsert : Machines.insert cache mapping (machines.atLevel cache .masked) = _ :=
    Machines.insert_of_masked (congrArg Machine.level hmachine) mapping
  have hrestored : ((machines.atLevel cache .masked).put cache
      (((machines.atLevel cache .masked).get cache).place mapping)).atLevel cache
        (machines.get cache).level = machines.put cache ((machines.get cache).place mapping) := by
    simp only [Machines.atLevel, Machines.get_put_self, Machines.put_put,
      Machine.withLevel_place_withLevel]
  rw [install, Action.bind_of_ok (Action.run_log _ machines), whileMasked_eq, hinsert]
  exact ⟨_, congrArg (Outcome.mk (.ok ()) · _) hrestored⟩

theorem invalidate_of_same {processor : Processor n}
    (hsame : processor.cache = processor.interrupts) (machines : Machines n) :
    ∃ events, processor.invalidate machines =
      ⟨.ok (), machines.put processor.cache (machines.get processor.cache).emptied, events⟩ := by
  rcases processor with ⟨cache, interrupts⟩
  obtain rfl : cache = interrupts := hsame
  have hmachine := Machines.get_put_self machines cache ((machines.get cache).withLevel .masked)
  have hempty : Machines.invalidate cache (machines.atLevel cache .masked) = _ :=
    Machines.invalidate_of_masked (congrArg Machine.level hmachine)
  have hrestored : ((machines.atLevel cache .masked).put cache
      ((machines.atLevel cache .masked).get cache).emptied).atLevel cache
        (machines.get cache).level = machines.put cache (machines.get cache).emptied := by
    simp only [Machines.atLevel, Machines.get_put_self, Machines.put_put]
    rfl
  rw [invalidate, whileMasked_eq, hempty]
  exact ⟨_, congrArg (Outcome.mk (.ok ()) · _) hrestored⟩

end Processor

end DemandPaging
