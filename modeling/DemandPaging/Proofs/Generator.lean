import Mathlib.Data.FinEnum
import Mathlib.Dynamics.PeriodicPts.Lemmas
import DemandPaging.Proofs.CacheJournal

/-!
The generator that names places in a full cache. It goes from one word to the next by adding to the
word, three times and without carries, a shifted copy of itself. No two words have the same next
one, so the words go around, and zero follows on zero alone.
-/

namespace DemandPaging

theorem Machines.seed_atLevel_self {n : Nat} (machines : Machines n) (id : Fin n)
    (level : InterruptLevel) :
    ((machines.atLevel id level).get id).seed = (machines.get id).seed := by
  rw [atLevel, get_put_self]
  rfl

namespace Machine

section Words

/-- To add a shifted copy of a word to the word itself loses nothing, if the copy of a sum is the
sum of the copies, and if after so many shifts nothing of a word is left. -/
theorem injective_xor_shift {shift : UInt32 → UInt32} (times : Nat)
    (hsum : ∀ a b, shift (a ^^^ b) = shift a ^^^ shift b)
    (hgone : ∀ word, shift^[times] word = 0) :
    Function.Injective fun word => word ^^^ shift word := by
  intro a b h
  -- What two such words differ in is its own shifted copy, so it is still there after all shifts.
  have hfixed : shift (a ^^^ b) = a ^^^ b := by
    have hzero : (a ^^^ shift a) ^^^ (b ^^^ shift b) = 0 := UInt32.xor_eq_zero_iff.mpr h
    rw [hsum, ← UInt32.xor_eq_zero_iff, ← hzero]
    ac_rfl
  have hkept : shift^[times] (a ^^^ b) = a ^^^ b := Function.iterate_fixed hfixed times
  rw [hgone] at hkept
  exact UInt32.xor_eq_zero_iff.mp hkept.symm

private theorem injective_xor_shiftLeft_13 :
    Function.Injective fun word : UInt32 => word ^^^ (word <<< 13) := by
  refine injective_xor_shift 3 (fun _ _ => UInt32.shiftLeft_xor) fun word => ?_
  rw [← UInt32.toBitVec_inj]
  change word.toBitVec <<< 13 <<< 13 <<< 13 = 0#32
  simp only [← BitVec.shiftLeft_add]
  exact BitVec.shiftLeft_eq_zero (by decide)

private theorem injective_xor_shiftRight_17 :
    Function.Injective fun word : UInt32 => word ^^^ (word >>> 17) := by
  refine injective_xor_shift 2 (fun _ _ => UInt32.shiftRight_xor) fun word => ?_
  rw [← UInt32.toBitVec_inj]
  change word.toBitVec >>> 17 >>> 17 = 0#32
  rw [← BitVec.shiftRight_add]
  exact BitVec.ushiftRight_eq_zero (by decide)

private theorem injective_xor_shiftLeft_5 :
    Function.Injective fun word : UInt32 => word ^^^ (word <<< 5) := by
  refine injective_xor_shift 7 (fun _ _ => UInt32.shiftLeft_xor) fun word => ?_
  rw [← UInt32.toBitVec_inj]
  change word.toBitVec <<< 5 <<< 5 <<< 5 <<< 5 <<< 5 <<< 5 <<< 5 = 0#32
  simp only [← BitVec.shiftLeft_add]
  exact BitVec.shiftLeft_eq_zero (by decide)

theorem nextSeed_injective : Function.Injective nextSeed :=
  injective_xor_shiftLeft_5.comp (injective_xor_shiftRight_17.comp injective_xor_shiftLeft_13)

theorem nextSeed_eq_zero_iff {seed : UInt32} : nextSeed seed = 0 ↔ seed = 0 :=
  nextSeed_injective.eq_iff' rfl

theorem exists_period (seed : UInt32) : ∃ period > 0, nextSeed^[period] seed = seed :=
  Function.mem_periodicPts.mp (nextSeed_injective.mem_periodicPts seed)

theorem exists_iterate_iterate_eq (seed : UInt32) (count : Nat) :
    ∃ more, nextSeed^[more] (nextSeed^[count] seed) = seed := by
  obtain ⟨period, hpositive, hperiod⟩ := exists_period seed
  have hle : count ≤ count * period := Nat.le_mul_of_pos_right count hpositive
  refine ⟨count * period - count, ?_⟩
  rw [← Function.iterate_add_apply, Nat.sub_add_cancel hle, Nat.mul_comm, Function.iterate_mul]
  exact Function.iterate_fixed hperiod count

theorem nextSeed_iterate_ne {seed : UInt32} (h : nextSeed seed ≠ seed) (count : Nat) :
    nextSeed (nextSeed^[count] seed) ≠ nextSeed^[count] seed := by
  rw [← Function.iterate_succ_apply' nextSeed, Function.iterate_succ_apply]
  exact fun hsame => h (nextSeed_injective.iterate count hsame)

theorem iterate_nextSeed_ne_zero {seed : UInt32} (h : seed ≠ 0) (count : Nat) :
    nextSeed^[count] seed ≠ 0 := by
  induction count with
  | zero => exact h
  | succ count ih =>
      rw [Function.iterate_succ_apply']
      exact mt nextSeed_eq_zero_iff.mp ih

end Words

section Place

variable {machine : Machine} {mapping : Mapping}

theorem slotOf?_eq_none_iff {page : VirtualAddress} :
    machine.slotOf? page = none ↔ page ∉ machine.cachedPages := by
  rw [slotOf?, Vector.findFinIdx?_eq_none_iff, mem_cachedPages_iff]
  constructor
  · rintro habsent ⟨old, hold, rfl⟩
    simpa using habsent _ hold
  · rintro habsent (_ | old) hold
    · simp
    · simpa using fun hpage => habsent ⟨old, hold, hpage⟩

theorem freeSlot?_eq_none_iff :
    machine.freeSlot? = none ↔ machine.liveEntries = Layout.cacheSlots := by
  rw [freeSlot?, Vector.findFinIdx?_eq_none_iff, liveEntries_eq_iff]
  constructor
  · intro htaken slot
    simpa [Option.isSome_iff_ne_none] using htaken _ (Vector.getElem_mem slot.isLt)
  · intro htaken cell hcell
    obtain ⟨place, hplace, rfl⟩ := Vector.mem_iff_getElem.mp hcell
    simpa [Option.isSome_iff_ne_none] using htaken ⟨place, hplace⟩

theorem place_of_full (hfull : machine.liveEntries = Layout.cacheSlots)
    (habsent : mapping.page ∉ machine.cachedPages) :
    machine.place mapping =
      { machine.fill (victim (nextSeed machine.seed)) mapping with
        seed := nextSeed machine.seed } := by
  rw [place, slotOf?_eq_none_iff.mpr habsent, freeSlot?_eq_none_iff.mpr hfull]

theorem seed_place_of_not_full
    (h : ¬ (machine.liveEntries = Layout.cacheSlots ∧ mapping.page ∉ machine.cachedPages)) :
    (machine.place mapping).seed = machine.seed := by
  rw [place]
  cases hslot : machine.slotOf? mapping.page with
  | some slot => rfl
  | none =>
      cases hfree : machine.freeSlot? with
      | some slot => rfl
      | none =>
          exact absurd ⟨freeSlot?_eq_none_iff.mp hfree, slotOf?_eq_none_iff.mp hslot⟩ h

end Place

/-- A call that has the generator name a place: while interrupts are masked, a mapping is inserted
of a page that the cache does not have, although it is full. -/
def Draws (machine : Machine) : Call → Prop
  | .write (.insert mapping) => machine.level = .masked ∧
      machine.liveEntries = Layout.cacheSlots ∧ mapping.page ∉ machine.cachedPages
  | _ => False

instance (machine : Machine) : DecidablePred machine.Draws
  | .write (.insert mapping) => inferInstanceAs (Decidable (machine.level = .masked ∧
      machine.liveEntries = Layout.cacheSlots ∧ mapping.page ∉ machine.cachedPages))
  | .write .invalidate => inferInstanceAs (Decidable False)
  | .mask => inferInstanceAs (Decidable False)
  | .restore _ => inferInstanceAs (Decidable False)

section Calls

variable {n : Nat} {id : Fin n} {machines : Machines n} {mapping : Mapping}

theorem Call.get_perform_of_ne (call : Call) {target : Fin n} (h : id ≠ target) :
    (call.perform target machines).state.get id = machines.get id := by
  cases call with
  | mask => exact machines.get_put_of_ne h _
  | restore level => exact machines.get_put_of_ne h _
  | write what =>
      rcases what.perform_cases target machines with ⟨machine, -, hwrite⟩ | hwrite
      · rw [Call.perform, hwrite]
        exact machines.get_put_of_ne h machine
      · rw [Call.perform, hwrite]

theorem Draws.perform (h : (machines.get id).Draws (.write (.insert mapping))) :
    ((Call.write (.insert mapping)).perform id machines).state.get id =
      { (machines.get id).fill (victim (nextSeed (machines.get id).seed)) mapping with
        seed := nextSeed (machines.get id).seed } := by
  obtain ⟨hlevel, hfull, habsent⟩ := h
  rw [Call.perform, CacheWrite.perform, Machines.insert_of_masked hlevel, Machines.get_put_self,
    place_of_full hfull habsent]

theorem seed_perform_of_draws {call : Call} (h : (machines.get id).Draws call) :
    ((call.perform id machines).state.get id).seed = nextSeed (machines.get id).seed := by
  match call, h with
  | .write (.insert mapping), h => rw [h.perform]

theorem seed_perform_of_not_draws {call : Call} (h : ¬ (machines.get id).Draws call) :
    ((call.perform id machines).state.get id).seed = (machines.get id).seed := by
  cases call with
  | mask => exact machines.seed_atLevel_self id .masked
  | restore level => exact machines.seed_atLevel_self id level
  | write what =>
      rw [Call.perform]
      cases hlevel : (machines.get id).level with
      | enabled => rw [what.perform_of_enabled hlevel]
      | masked =>
          cases what with
          | insert mapping =>
              rw [CacheWrite.perform, Machines.insert_of_masked hlevel, Machines.get_put_self]
              exact seed_place_of_not_full fun hfull => h ⟨hlevel, hfull⟩
          | invalidate =>
              rw [CacheWrite.perform, Machines.invalidate_of_masked hlevel, Machines.get_put_self]
              rfl

end Calls

def counting {n : Nat} (id : Fin n) (s : Machines n × Nat) (named : Fin n × Call) :
    Machines n × Nat :=
  ((named.2.perform named.1 s.1).state,
    if named.1 = id ∧ (s.1.get id).Draws named.2 then s.2 + 1 else s.2)

/-- The states of machines with the number of draws of one of them that lead to them. Calls of the
other machines and calls that fail are made in between. -/
def Drawn {n : Nat} (id : Fin n) (machines : Machines n) (draws : Nat) : Prop :=
  Reached (fun s => s.1.get id = Machine.new ∧ s.2 = 0) (fun _ _ => True) (counting id)
    (machines, draws)

theorem seed_counting {n : Nat} {id : Fin n} {s : Machines n × Nat} (named : Fin n × Call)
    (h : (s.1.get id).seed = nextSeed^[s.2] Machine.new.seed) :
    ((counting id s named).1.get id).seed =
      nextSeed^[(counting id s named).2] Machine.new.seed := by
  obtain ⟨target, call⟩ := named
  rw [counting]
  by_cases htarget : target = id
  · subst htarget
    by_cases hdraws : (s.1.get target).Draws call
    · rw [seed_perform_of_draws hdraws, if_pos ⟨rfl, hdraws⟩, h, Function.iterate_succ_apply']
    · rw [seed_perform_of_not_draws hdraws, if_neg fun hboth => hdraws hboth.2, h]
  · rw [call.get_perform_of_ne (Ne.symm htarget), if_neg fun hboth => htarget hboth.1, h]

theorem Drawn.run {n : Nat} {id : Fin n} {machines : Machines n} {draws : Nat}
    (h : Drawn id machines draws) (calls : List (Fin n × Call)) :
    Drawn id (calls.foldl (counting id) (machines, draws)).1
      (calls.foldl (counting id) (machines, draws)).2 :=
  Reached.run h (.of_forall fun _ _ _ => trivial)

/-- After so many draws the generator is at the word that many steps from the first one. -/
theorem Drawn.seed_eq {n : Nat} {id : Fin n} {machines : Machines n} {draws : Nat}
    (h : Drawn id machines draws) :
    (machines.get id).seed = nextSeed^[draws] Machine.new.seed := by
  refine Reached.keeps h (P := fun s => (s.1.get id).seed = nextSeed^[s.2] Machine.new.seed) ?_ ?_
  · rintro ⟨machines, draws⟩ ⟨hnew, rfl⟩
    exact congrArg Machine.seed hnew
  · intro s named _ _ ih
    exact seed_counting named ih

/-- What the generator of a machine has done after so many draws, and what it does next. -/
structure Generates {n : Nat} (id : Fin n) (machines : Machines n) (draws : Nat) : Prop where
  seed_eq : (machines.get id).seed = nextSeed^[draws] Machine.new.seed
  seed_ne_zero : (machines.get id).seed ≠ 0
  periodic : ∃ period > 0, ∀ count,
    nextSeed^[count + period] Machine.new.seed = nextSeed^[count] Machine.new.seed
  recurs : ∃ more, nextSeed^[more] (machines.get id).seed = Machine.new.seed
  drawn : ∀ call, (machines.get id).Draws call →
    ((call.perform id machines).state.get id).seed = nextSeed (machines.get id).seed ∧
      ((call.perform id machines).state.get id).seed ≠ (machines.get id).seed
  named : ∀ mapping, (machines.get id).Draws (.write (.insert mapping)) →
    ∃ place, ∃ hplace : place < Layout.cacheSlots,
      place = (nextSeed (machines.get id).seed).toNat % Layout.cacheSlots ∧
        (((Call.write (.insert mapping)).perform id machines).state.get id).slots =
          (machines.get id).slots.set place (some mapping) hplace
  kept : ∀ target call, ¬ (target = id ∧ (machines.get id).Draws call) →
    ((call.perform target machines).state.get id).seed = (machines.get id).seed

/-- The generator loses no word and comes to zero from zero only. So in every state that calls can
lead to, the seed of a machine is not zero and will be the first one again. It has moved on by one
word for each mapping that was placed in a full cache without its page, and for no other call. -/
theorem generates_of_drawn {n : Nat} {id : Fin n} {machines : Machines n} {draws : Nat}
    (h : Drawn id machines draws) :
    Function.Injective nextSeed ∧ (∀ seed, nextSeed seed = 0 → seed = 0) ∧
      Generates id machines draws := by
  refine ⟨nextSeed_injective, fun seed => nextSeed_eq_zero_iff.mp, ?_⟩
  obtain ⟨period, hpositive, hperiod⟩ := exists_period Machine.new.seed
  exact {
    seed_eq := h.seed_eq
    seed_ne_zero := by
      rw [h.seed_eq]
      exact iterate_nextSeed_ne_zero (by decide) draws
    periodic := by
      refine ⟨period, hpositive, fun count => ?_⟩
      rw [Function.iterate_add_apply, hperiod]
    recurs := by
      rw [h.seed_eq]
      exact exists_iterate_iterate_eq Machine.new.seed draws
    drawn := by
      intro call hdraws
      refine ⟨seed_perform_of_draws hdraws, ?_⟩
      rw [seed_perform_of_draws hdraws, h.seed_eq]
      exact nextSeed_iterate_ne (by decide) draws
    named := by
      intro mapping hdraws
      refine ⟨_, (victim (nextSeed (machines.get id).seed)).isLt, rfl, ?_⟩
      rw [hdraws.perform]
      rfl
    kept := by
      intro target call hnot
      by_cases htarget : target = id
      · subst htarget
        exact seed_perform_of_not_draws fun hdraws => hnot ⟨rfl, hdraws⟩
      · rw [call.get_perform_of_ne (Ne.symm htarget)] }

/-- A machine is given one page more than its cache has places, and this page once again. -/
def overfilling {n : Nat} (id : Fin n) : List (Fin n × Call) :=
  (id, .mask) :: (List.range 65).map (fun page => (id, .write (.insert (numbered page page)))) ++
    [(id, .write (.insert (numbered 64 0)))]

def overfilled {n : Nat} (id : Fin n) (machines : Machines n) : Machines n × Nat :=
  (overfilling id).foldl (counting id) (machines, 0)

theorem generates_of_overfilling :
    ∃ after : Machines 1 × Nat, overfilled 0 #v[Machine.new] = after ∧ after.2 = 1 ∧
      (after.1.get 0).seed = 0xE124B63A ∧ (after.1.get 0).slots[58] = some (numbered 64 0) ∧
      Function.Injective nextSeed ∧ (∀ seed, nextSeed seed = 0 → seed = 0) ∧
      Generates 0 after.1 after.2 := by
  have hafter : (overfilled (0 : Fin 1) #v[Machine.new]).2 = 1 ∧
      ((overfilled (0 : Fin 1) #v[Machine.new]).1.get 0).seed = 0xE124B63A ∧
      ((overfilled (0 : Fin 1) #v[Machine.new]).1.get 0).slots[58] = some (numbered 64 0) := by
    decide +kernel
  have hdrawn : Drawn (0 : Fin 1) #v[Machine.new] 0 := Reached.start ⟨rfl, rfl⟩
  exact ⟨_, rfl, hafter.1, hafter.2.1, hafter.2.2,
    generates_of_drawn (hdrawn.run (overfilling 0))⟩

end Machine

end DemandPaging
