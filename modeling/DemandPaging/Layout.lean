import DemandPaging.Failure

namespace DemandPaging.Layout

abbrev pageShift : Nat := 12

abbrev pageSize : Nat := 4096

abbrev virtualBits : Nat := 32

abbrev firstLevelBits : Nat := 11

abbrev secondLevelBits : Nat := 9

abbrev firstLevelEntries : Nat := 2048

abbrev secondLevelEntries : Nat := 512

abbrev pageCount : Nat := 1048576

abbrev userStackPages : Nat := 16

abbrev cacheSlots : Nat := 64

abbrev pageBytes : UInt64 := 4096

abbrev pageMask : UInt64 := ~~~0xfff

abbrev userStackTop : UInt64 := 0x80000000

abbrev userStackSize : UInt64 := 0x10000

theorem pageSize_eq : pageSize = 1 <<< pageShift := rfl

theorem firstLevelEntries_eq : firstLevelEntries = 1 <<< firstLevelBits := rfl

theorem secondLevelEntries_eq : secondLevelEntries = 1 <<< secondLevelBits := rfl

theorem pageCount_eq : pageCount = 1 <<< (virtualBits - pageShift) := rfl

theorem userStackSize_eq : userStackSize.toNat = userStackPages * pageSize := rfl

theorem toNat_and_pageMask (word : UInt64) :
    (word &&& pageMask).toNat = word.toNat / pageSize * pageSize := by
  have hmask : (pageMask : UInt64).toNat = (2 ^ 52 - 1) <<< 12 := by rfl
  rw [UInt64.toNat_and, hmask]
  apply Nat.eq_of_testBit_eq
  intro i
  rw [show pageSize = 2 ^ 12 by rfl, Nat.testBit_and, Nat.testBit_shiftLeft,
    Nat.testBit_two_pow_sub_one, ← Nat.shiftLeft_eq, ← Nat.shiftRight_eq_div_pow,
    Nat.testBit_shiftLeft, Nat.testBit_shiftRight]
  by_cases h : 12 ≤ i
  · rw [Nat.add_sub_cancel' h]
    by_cases hi : i - 12 < 52
    · simp [h, hi]
    · have hlt : word.toNat < 2 ^ i := Nat.lt_of_lt_of_le word.toNat_lt
        (Nat.pow_le_pow_right (by decide) (by omega))
      simp [Nat.testBit_lt_two_pow hlt]
  · simp [h]

/-- The two levels of a page table: a block holds entries, the directory holds blocks. -/
inductive Level
  | block
  | directory
  deriving DecidableEq, Repr

namespace Level

def ofWord (level : UInt64) : Except Violation Level :=
  if level = 0 then .ok block
  else if level = 1 then .ok directory
  else .error .levelOutOfRange

def shift : Level → UInt64
  | block => 12
  | directory => 21

def mask : Level → UInt64
  | block => 0x1ff
  | directory => 0x7ff

def entries : Level → Nat
  | block => secondLevelEntries
  | directory => firstLevelEntries

def index (level : Level) (address : UInt64) : UInt64 :=
  (address >>> level.shift) &&& level.mask

theorem toNat_index (level : Level) (address : UInt64) :
    (level.index address).toNat = (address.toNat >>> level.shift.toNat) % level.entries := by
  cases level
  · simp only [index, shift, mask, entries, UInt64.toNat_and, UInt64.toNat_shiftRight]
    rw [show (0x1ff : UInt64).toNat = 2 ^ 9 - 1 by rfl, Nat.and_two_pow_sub_one_eq_mod]
    rfl
  · simp only [index, shift, mask, entries, UInt64.toNat_and, UInt64.toNat_shiftRight]
    rw [show (0x7ff : UInt64).toNat = 2 ^ 11 - 1 by rfl, Nat.and_two_pow_sub_one_eq_mod]
    rfl

theorem index_lt (level : Level) (address : UInt64) :
    (level.index address).toNat < level.entries := by
  rw [toNat_index]
  exact Nat.mod_lt _ (by cases level <;> decide)

end Level

def pageIndex (address level : UInt64) : Except Violation UInt64 := do
  return (← Level.ofWord level).index address

def isUserAddress (address : UInt64) : Bool :=
  address < 0x100000000

@[simp] theorem isUserAddress_iff (address : UInt64) :
    isUserAddress address = true ↔ address.toNat < 0x100000000 := by
  simp [isUserAddress, UInt64.lt_iff_toNat_lt]

end DemandPaging.Layout
