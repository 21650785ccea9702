import DemandPaging.Failure

namespace DemandPaging.Checked

/-- Sums that need more than 64 bits are violations, and so are the differences and products below.
-/
def add (a b : UInt64) : Except Violation UInt64 :=
  if a.toNat + b.toNat < UInt64.size then .ok (a + b) else .error .additionOverflow

def sub (a b : UInt64) : Except Violation UInt64 :=
  if b ≤ a then .ok (a - b) else .error .subtractionOverflow

def mul (a b : UInt64) : Except Violation UInt64 :=
  if a.toNat * b.toNat < UInt64.size then .ok (a * b) else .error .multiplicationOverflow

def add? (a b : UInt64) : Option UInt64 :=
  (add a b).toOption

def sub? (a b : UInt64) : Option UInt64 :=
  (sub a b).toOption

theorem add_eq_ok_iff {a b c : UInt64} : add a b = .ok c ↔ a.toNat + b.toNat = c.toNat := by
  unfold add
  split
  · rename_i h
    rw [Except.ok.injEq, ← UInt64.toNat_inj, UInt64.toNat_add, Nat.mod_eq_of_lt h]
  · have := c.toNat_lt_size
    simp only [reduceCtorEq, false_iff]
    omega

theorem sub_eq_ok_iff {a b c : UInt64} : sub a b = .ok c ↔ a.toNat = b.toNat + c.toNat := by
  unfold sub
  split
  · rename_i h
    rw [Except.ok.injEq, ← UInt64.toNat_inj, UInt64.toNat_sub_of_le _ _ h]
    rw [UInt64.le_iff_toNat_le] at h
    omega
  · rename_i h
    rw [UInt64.le_iff_toNat_le] at h
    simp only [reduceCtorEq, false_iff]
    omega

theorem exists_sub {a b : UInt64} (h : b.toNat ≤ a.toNat) : ∃ c, sub a b = .ok c := by
  refine ⟨a - b, ?_⟩
  rw [sub, if_pos (UInt64.le_iff_toNat_le.mpr h)]

theorem mul_eq_ok_iff {a b c : UInt64} : mul a b = .ok c ↔ a.toNat * b.toNat = c.toNat := by
  unfold mul
  split
  · rename_i h
    rw [Except.ok.injEq, ← UInt64.toNat_inj, UInt64.toNat_mul, Nat.mod_eq_of_lt h]
  · have := c.toNat_lt_size
    simp only [reduceCtorEq, false_iff]
    omega

theorem add?_eq_some_iff {a b c : UInt64} : add? a b = some c ↔ a.toNat + b.toNat = c.toNat := by
  rw [← add_eq_ok_iff, add?]
  cases add a b <;> simp [Except.toOption]

theorem sub?_eq_some_iff {a b c : UInt64} : sub? a b = some c ↔ a.toNat = b.toNat + c.toNat := by
  rw [← sub_eq_ok_iff, sub?]
  cases sub a b <;> simp [Except.toOption]

end DemandPaging.Checked
