import DemandPaging.Address.Virtual

namespace DemandPaging

/-- The number of a page. Any word is one, but the indices in the two levels of a page table see
only its low twenty bits. -/
structure PageNumber where
  number : UInt64
  deriving DecidableEq, Repr, Inhabited

abbrev FirstIndex := Fin Layout.firstLevelEntries

abbrev SecondIndex := Fin Layout.secondLevelEntries

namespace PageNumber

instance : Ord PageNumber where
  compare a b := compare a.number b.number

instance : ToString PageNumber where
  toString page := hex page.number

def shown (page : PageNumber) : Shown :=
  .atom ("PageNumber(" ++ hex page.number ++ ")")

def firstIndex (page : PageNumber) : FirstIndex :=
  ⟨(Layout.Level.directory.index (page.number <<< 12)).toNat, Layout.Level.index_lt _ _⟩

def secondIndex (page : PageNumber) : SecondIndex :=
  ⟨(Layout.Level.block.index (page.number <<< 12)).toNat, Layout.Level.index_lt _ _⟩

def ofPlaces (first : FirstIndex) (second : SecondIndex) : PageNumber :=
  ⟨(UInt64.ofNat first.val <<< 9) ||| UInt64.ofNat second.val⟩

def ofIndices (first second : UInt64) : Except Violation PageNumber :=
  if hf : first.toNat < Layout.firstLevelEntries then
    if hs : second.toNat < Layout.secondLevelEntries then
      .ok (ofPlaces ⟨first.toNat, hf⟩ ⟨second.toNat, hs⟩)
    else .error .secondIndexOutOfRange
  else .error .firstIndexOutOfRange

theorem toNat_number_inj {page other : PageNumber} :
    page.number.toNat = other.number.toNat ↔ page = other := by
  rcases page with ⟨number⟩
  rcases other with ⟨another⟩
  rw [mk.injEq, UInt64.toNat_inj]

theorem val_firstIndex (page : PageNumber) :
    page.firstIndex.val = page.number.toNat / 512 % 2048 := by
  simp only [firstIndex, Layout.Level.toNat_index, Layout.Level.shift, Layout.Level.entries,
    UInt64.toNat_shiftLeft]
  rw [show (12 : UInt64).toNat % 64 = 12 by rfl, show (21 : UInt64).toNat = 21 by rfl,
    Nat.shiftLeft_eq]
  simp only [Layout.firstLevelEntries]
  have := page.number.toNat_lt
  omega

theorem val_secondIndex (page : PageNumber) : page.secondIndex.val = page.number.toNat % 512 := by
  simp only [secondIndex, Layout.Level.toNat_index, Layout.Level.shift, Layout.Level.entries,
    UInt64.toNat_shiftLeft]
  rw [show (12 : UInt64).toNat % 64 = 12 by rfl, show (12 : UInt64).toNat = 12 by rfl,
    Nat.shiftLeft_eq]
  simp only [Layout.secondLevelEntries]
  have := page.number.toNat_lt
  omega

theorem toNat_ofPlaces (first : FirstIndex) (second : SecondIndex) :
    (ofPlaces first second).number.toNat = first.val * 512 + second.val := by
  have hf : first.val < 2048 := first.isLt
  have hs : second.val < 2 ^ 9 := second.isLt
  simp only [ofPlaces, UInt64.toNat_or, UInt64.toNat_shiftLeft, UInt64.toNat_ofNat']
  rw [show (9 : UInt64).toNat % 64 = 9 by rfl, Nat.mod_eq_of_lt (by omega : first.val < 2 ^ 64),
    Nat.mod_eq_of_lt (by omega : second.val < 2 ^ 64),
    Nat.mod_eq_of_lt (by rw [Nat.shiftLeft_eq]; omega), ← Nat.shiftLeft_add_eq_or_of_lt hs,
    Nat.shiftLeft_eq]

def start (page : PageNumber) : Except Violation VirtualAddress := do
  VirtualAddress.ofWord (← Checked.mul page.number Layout.pageBytes)

def add (page : PageNumber) (count : UInt64) : Except Violation PageNumber :=
  (Checked.add page.number count).map PageNumber.mk

def sub (page : PageNumber) (count : UInt64) : Except Violation PageNumber :=
  (Checked.sub page.number count).map PageNumber.mk

def distance (page other : PageNumber) : Except Violation UInt64 :=
  Checked.sub page.number other.number

/-- How many steps lead from one page up to another: a lower bound, and the exact number if there is
one. -/
def stepsBetween (start finish : PageNumber) : UInt64 × Option UInt64 :=
  match Checked.sub? finish.number start.number with
  | some steps => (steps, some steps)
  | none => (0, none)

def forward? (page : PageNumber) (count : UInt64) : Option PageNumber :=
  (Checked.add? page.number count).map PageNumber.mk

def backward? (page : PageNumber) (count : UInt64) : Option PageNumber :=
  (Checked.sub? page.number count).map PageNumber.mk

theorem forward?_eq_some_iff {page next : PageNumber} {count : UInt64} :
    page.forward? count = some next ↔ page.number.toNat + count.toNat = next.number.toNat := by
  rcases next with ⟨next⟩
  simp [forward?, ← Checked.add?_eq_some_iff]

theorem backward?_eq_some_iff {page next : PageNumber} {count : UInt64} :
    page.backward? count = some next ↔ page.number.toNat = count.toNat + next.number.toNat := by
  rcases next with ⟨next⟩
  simp [backward?, ← Checked.sub?_eq_some_iff]

end PageNumber

def VirtualAddress.pageNumber (address : VirtualAddress) : PageNumber :=
  ⟨address.word / Layout.pageBytes⟩

end DemandPaging
