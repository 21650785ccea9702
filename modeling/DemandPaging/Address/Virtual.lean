import DemandPaging.Checked
import DemandPaging.Layout
import DemandPaging.Shown

namespace DemandPaging

/-- An address of a user address space. A 64-bit word is one only below `2 ^ 32`. -/
structure VirtualAddress where
  word32 : UInt32
  deriving DecidableEq, Repr, Inhabited

namespace VirtualAddress

def word (address : VirtualAddress) : UInt64 :=
  address.word32.toUInt64

theorem toNat_word_lt (address : VirtualAddress) : address.word.toNat < 0x100000000 := by
  simpa [word] using address.word32.toNat_lt

theorem word_injective {a b : VirtualAddress} (h : a.word = b.word) : a = b := by
  rcases a with ⟨a⟩
  rcases b with ⟨b⟩
  simpa [word, ← UInt64.toNat_inj, UInt32.toNat_inj] using h

def ofWord? (word : UInt64) : Option VirtualAddress :=
  if Layout.isUserAddress word then some ⟨word.toUInt32⟩ else none

def ofWord (word : UInt64) : Except Violation VirtualAddress :=
  match ofWord? word with
  | some address => .ok address
  | none => .error .addressTooLarge

theorem ofWord?_eq_some_iff {w : UInt64} {address : VirtualAddress} :
    ofWord? w = some address ↔ address.word = w := by
  unfold ofWord?
  split
  · rename_i h
    rw [Layout.isUserAddress_iff] at h
    constructor
    · intro heq
      rw [Option.some.injEq] at heq
      rw [← heq, ← UInt64.toNat_inj]
      simpa [word] using h
    · rintro rfl
      rcases address with ⟨a⟩
      simp [word]
  · rename_i h
    simp only [reduceCtorEq, false_iff]
    rintro rfl
    exact h ((Layout.isUserAddress_iff _).mpr address.toNat_word_lt)

theorem ofWord_eq_ok_iff {w : UInt64} {address : VirtualAddress} :
    ofWord w = .ok address ↔ address.word = w := by
  rw [← ofWord?_eq_some_iff, ofWord]
  cases ofWord? w <;> simp

@[simp] theorem ofWord?_word (address : VirtualAddress) : ofWord? address.word = some address :=
  ofWord?_eq_some_iff.mpr rfl

@[simp] theorem ofWord_word (address : VirtualAddress) : ofWord address.word = .ok address :=
  ofWord_eq_ok_iff.mpr rfl

instance : Ord VirtualAddress where
  compare a b := compare a.word b.word

instance : ToString VirtualAddress where
  toString address := hex address.word

def shown (address : VirtualAddress) : Shown :=
  .applied "VirtualAddress" (.atom (hex address.word))

def isPageAligned (address : VirtualAddress) : Bool :=
  address.word % Layout.pageBytes = 0

def pageBase (address : VirtualAddress) : VirtualAddress :=
  ⟨address.word32 &&& ~~~0xfff⟩

def pageOffset (address : VirtualAddress) : UInt64 :=
  address.word &&& 0xfff

def isNull (address : VirtualAddress) : Bool :=
  address.word = 0

def pageIndex (address : VirtualAddress) (level : UInt64) : Except Violation UInt64 :=
  Layout.pageIndex address.word level

def add (address : VirtualAddress) (offset : UInt64) : Except Violation VirtualAddress := do
  ofWord (← Checked.add address.word offset)

end VirtualAddress

end DemandPaging
