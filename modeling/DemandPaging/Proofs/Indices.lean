import Mathlib.Data.Prod.Lex
import DemandPaging.Proofs.Translation

namespace DemandPaging

namespace PageNumber

section Lemmas

variable {page : PageNumber} {first second : UInt64} {address : VirtualAddress}

theorem ofIndices_eq_ok_iff :
    ofIndices first second = .ok page ↔
      first.toNat < Layout.firstLevelEntries ∧ second.toNat < Layout.secondLevelEntries ∧
        page.number.toNat = first.toNat * Layout.secondLevelEntries + second.toNat := by
  rw [ofIndices]
  split
  · rename_i hfirst
    split
    · rename_i hsecond
      rw [Except.ok.injEq, eq_comm, ← toNat_number_inj, toNat_ofPlaces]
      simp [hfirst, hsecond]
    · rename_i hsecond
      simp [hsecond]
  · rename_i hfirst
    simp [hfirst]

theorem exists_ofIndices (hfirst : first.toNat < Layout.firstLevelEntries)
    (hsecond : second.toNat < Layout.secondLevelEntries) :
    ∃ page, ofIndices first second = .ok page := by
  rw [ofIndices, dif_pos hfirst, dif_pos hsecond]
  exact ⟨_, rfl⟩

theorem toNat_ofNat_firstIndex (page : PageNumber) :
    (UInt64.ofNat page.firstIndex.val).toNat = page.firstIndex.val :=
  UInt64.toNat_ofNat_of_lt' (page.firstIndex.isLt.trans (by decide))

theorem toNat_ofNat_secondIndex (page : PageNumber) :
    (UInt64.ofNat page.secondIndex.val).toNat = page.secondIndex.val :=
  UInt64.toNat_ofNat_of_lt' (page.secondIndex.isLt.trans (by decide))

theorem start_eq_ok_iff :
    page.start = .ok address ↔ address.word.toNat = page.number.toNat * Layout.pageSize := by
  have hbytes : Layout.pageBytes.toNat = Layout.pageSize := rfl
  rw [start]
  cases hproduct : Checked.mul page.number Layout.pageBytes with
  | ok word =>
      change VirtualAddress.ofWord word = .ok address ↔ _
      rw [Checked.mul_eq_ok_iff, hbytes] at hproduct
      rw [VirtualAddress.ofWord_eq_ok_iff, hproduct, UInt64.toNat_inj]
  | error violation =>
      refine iff_of_false (by simp [bind, Except.bind]) fun hword => ?_
      rw [← hbytes, eq_comm, ← Checked.mul_eq_ok_iff, hproduct] at hword
      contradiction

theorem exists_start_iff (page : PageNumber) :
    (∃ address, page.start = .ok address) ↔ page.number.toNat < Layout.pageCount := by
  constructor
  · rintro ⟨address, hstart⟩
    have hword := address.toNat_word_lt
    rw [start_eq_ok_iff.mp hstart] at hword
    simp only [Layout.pageSize, Layout.pageCount] at *
    omega
  · intro hlt
    have hword : (VirtualAddress.mk (.ofNat (page.number.toNat * Layout.pageSize))).word.toNat =
        page.number.toNat * Layout.pageSize := by
      rw [VirtualAddress.word, UInt32.toNat_toUInt64]
      exact UInt32.toNat_ofNat_of_lt' (Nat.mul_lt_mul_of_pos_right hlt (by decide))
    exact ⟨_, start_eq_ok_iff.mpr hword⟩

theorem pageNumber_of_start (h : page.start = .ok address) : address.pageNumber = page := by
  rw [← toNat_number_inj, VirtualAddress.toNat_pageNumber, start_eq_ok_iff.mp h]
  exact Nat.mul_div_cancel _ (by decide)

end Lemmas

/-- How a page number is taken apart. Its indices are the two lowest digits of it, and they are all
that is needed to put it together again if it is that of a user page. -/
structure Splits (page : PageNumber) : Prop where
  firstIndex_eq : page.firstIndex.val =
    page.number.toNat / Layout.secondLevelEntries % Layout.firstLevelEntries
  secondIndex_eq : page.secondIndex.val = page.number.toNat % Layout.secondLevelEntries
  indexed : Layout.pageIndex (page.number <<< 12) 1 = .ok (.ofNat page.firstIndex.val) ∧
    Layout.pageIndex (page.number <<< 12) 0 = .ok (.ofNat page.secondIndex.val)
  joined : ∃ again, ofIndices (.ofNat page.firstIndex.val) (.ofNat page.secondIndex.val) =
    .ok again ∧ again.number.toNat = page.number.toNat % Layout.pageCount
  refused_iff : (∃ violation, page.start = .error violation) ↔
    Layout.pageCount ≤ page.number.toNat
  started : page.number.toNat < Layout.pageCount →
    ∃ address, page.start = .ok address ∧ address.pageNumber = page

theorem splits (page : PageNumber) : page.Splits where
  firstIndex_eq := page.val_firstIndex
  secondIndex_eq := page.val_secondIndex
  indexed := by
    rw [firstIndex, secondIndex, UInt64.ofNat_toNat, UInt64.ofNat_toNat]
    exact ⟨rfl, rfl⟩
  joined := by
    obtain ⟨again, hagain⟩ := exists_ofIndices
      (page.toNat_ofNat_firstIndex.trans_lt page.firstIndex.isLt)
      (page.toNat_ofNat_secondIndex.trans_lt page.secondIndex.isLt)
    refine ⟨again, hagain, ?_⟩
    rw [(ofIndices_eq_ok_iff.mp hagain).2.2, toNat_ofNat_firstIndex, toNat_ofNat_secondIndex,
      val_firstIndex, val_secondIndex]
    simp only [Layout.secondLevelEntries, Layout.pageCount]
    omega
  refused_iff := by
    rw [← not_lt, ← exists_start_iff]
    cases page.start <;> simp
  started hlt := by
    obtain ⟨address, hstart⟩ := page.exists_start_iff.mpr hlt
    exact ⟨address, hstart, pageNumber_of_start hstart⟩

/-- How two indices are joined. They come out of the number again, and numbers are ordered as their
indices are, the first one before the second. -/
structure JoinsInOrder : Prop where
  joined_iff : ∀ first second : UInt64, (∃ page, ofIndices first second = .ok page) ↔
    first.toNat < Layout.firstLevelEntries ∧ second.toNat < Layout.secondLevelEntries
  split : ∀ first second page, ofIndices first second = .ok page →
    page.firstIndex.val = first.toNat ∧ page.secondIndex.val = second.toNat
  lt_iff : ∀ first second page other another next, ofIndices first second = .ok page →
    ofIndices other another = .ok next →
      (page.number < next.number ↔ toLex (first, second) < toLex (other, another))

theorem joinsInOrder : JoinsInOrder where
  joined_iff first second := by
    constructor
    · rintro ⟨page, hpage⟩
      obtain ⟨hfirst, hsecond, -⟩ := ofIndices_eq_ok_iff.mp hpage
      exact ⟨hfirst, hsecond⟩
    · rintro ⟨hfirst, hsecond⟩
      exact exists_ofIndices hfirst hsecond
  split first second page hpage := by
    obtain ⟨hfirst, hsecond, hnumber⟩ := ofIndices_eq_ok_iff.mp hpage
    rw [val_firstIndex, val_secondIndex, hnumber]
    simp only [Layout.firstLevelEntries, Layout.secondLevelEntries] at *
    omega
  lt_iff first second page other another next hpage hnext := by
    obtain ⟨-, hsecond, hnumber⟩ := ofIndices_eq_ok_iff.mp hpage
    obtain ⟨-, hanother, hnext⟩ := ofIndices_eq_ok_iff.mp hnext
    rw [Prod.Lex.toLex_lt_toLex, UInt64.lt_iff_toNat_lt, UInt64.lt_iff_toNat_lt,
      UInt64.lt_iff_toNat_lt, ← UInt64.toNat_inj, hnumber, hnext]
    simp only [Layout.secondLevelEntries] at *
    omega

end PageNumber

namespace VirtualAddress

/-- How an address is taken apart: into the start of its page and an offset, which add up to it, and
into the indices of its page number. -/
structure Splits (address : VirtualAddress) : Prop where
  start : address.pageNumber.start = .ok address.pageBase
  sum : address.pageBase.add address.pageOffset = .ok address
  firstIndex : address.pageIndex 1 = .ok (.ofNat address.pageNumber.firstIndex.val)
  secondIndex : address.pageIndex 0 = .ok (.ofNat address.pageNumber.secondIndex.val)

theorem add_pageOffset (address : VirtualAddress) :
    address.pageBase.add address.pageOffset = .ok address := by
  have hsum : Checked.add address.pageBase.word address.pageOffset = .ok address.word := by
    rw [Checked.add_eq_ok_iff, toNat_pageBase, toNat_pageOffset, Nat.div_add_mod']
  rw [add, hsum]
  exact ofWord_word address

theorem index_word (address : VirtualAddress) (level : Layout.Level) :
    level.index address.word = level.index (address.pageNumber.number <<< 12) := by
  have hword := address.toNat_word_lt
  rw [← UInt64.toNat_inj, Layout.Level.toNat_index, Layout.Level.toNat_index,
    UInt64.toNat_shiftLeft, toNat_pageNumber, Nat.shiftLeft_eq, Nat.shiftRight_eq_div_pow,
    Nat.shiftRight_eq_div_pow]
  cases level
  · change address.word.toNat / 2 ^ 12 % 512 =
      address.word.toNat / 4096 * 2 ^ 12 % 2 ^ 64 / 2 ^ 12 % 512
    omega
  · change address.word.toNat / 2 ^ 21 % 2048 =
      address.word.toNat / 4096 * 2 ^ 12 % 2 ^ 64 / 2 ^ 21 % 2048
    omega

theorem splits (address : VirtualAddress) : address.Splits where
  start := address.start_pageNumber
  sum := address.add_pageOffset
  firstIndex := by
    rw [PageNumber.firstIndex, UInt64.ofNat_toNat]
    exact congrArg Except.ok (address.index_word .directory)
  secondIndex := by
    rw [PageNumber.secondIndex, UInt64.ofNat_toNat]
    exact congrArg Except.ok (address.index_word .block)

end VirtualAddress

/-- Indices are exact. A number of a page is split into its digits whatever bits it has, two indices
in range are joined in their order to the number that has them, and a user address is split as its
page is. -/
theorem splits_exactly (page : PageNumber) (address : VirtualAddress) :
    page.Splits ∧ PageNumber.JoinsInOrder ∧ address.Splits :=
  ⟨page.splits, PageNumber.joinsInOrder, address.splits⟩

end DemandPaging
