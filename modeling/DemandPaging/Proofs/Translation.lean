import DemandPaging.Proofs.Conservation

namespace DemandPaging

namespace VirtualAddress

theorem toNat_pageOffset (address : VirtualAddress) :
    address.pageOffset.toNat = address.word.toNat % Layout.pageSize := by
  have hmask : (0xfff : UInt64).toNat = 2 ^ 12 - 1 := by rfl
  rw [pageOffset, UInt64.toNat_and, hmask, Nat.and_two_pow_sub_one_eq_mod]

def offset (address : VirtualAddress) : Fin Layout.pageSize :=
  ⟨address.word.toNat % Layout.pageSize, Nat.mod_lt _ (by decide)⟩

theorem toNat_pageNumber_lt (address : VirtualAddress) :
    address.pageNumber.number.toNat < Layout.pageCount := by
  have hword := address.toNat_word_lt
  rw [toNat_pageNumber]
  exact Nat.div_lt_of_lt_mul hword

theorem eq_of_place_eq {a b : VirtualAddress} (hplace : a.pageNumber.place = b.pageNumber.place)
    (hoffset : a.offset = b.offset) : a = b := by
  have hpage := PageNumber.place_injective a.toNat_pageNumber_lt b.toNat_pageNumber_lt hplace
  have hnumber := congrArg (fun page => page.number.toNat) hpage
  simp only [toNat_pageNumber] at hnumber
  have hmod : a.word.toNat % Layout.pageSize = b.word.toNat % Layout.pageSize :=
    congrArg Fin.val hoffset
  apply word_injective
  rw [← UInt64.toNat_inj, ← Nat.div_add_mod a.word.toNat Layout.pageSize, hnumber, hmod,
    Nat.div_add_mod]

end VirtualAddress

theorem PhysicalAddress.eq_of_frameIndex_eq {frame other : PhysicalAddress}
    (hframe : frame.isPageAligned = true) (hother : other.isPageAligned = true)
    (h : frame.frameIndex = other.frameIndex) : frame = other := by
  rw [← ofFrameIndex_frameIndex hframe, h, ofFrameIndex_frameIndex hother]

theorem PageTable.place_eq_of_frame_eq {table : PageTable} (h : table.WellFormed)
    (hnodup : table.frames.Nodup) {page other : PageNumber} {entry another : PageEntry}
    (hentry : table.find? page = some entry) (hanother : table.find? other = some another)
    (hframe : entry.frame = another.frame) : page.place = other.place := by
  obtain ⟨listed, hlisted, hmem⟩ := exists_mem_mappedPages hentry
  obtain ⟨found, hfound, hin⟩ := exists_mem_mappedPages hanother
  have hmapped := (frames_perm h).nodup_iff.mpr hnodup
  have hsame := List.inj_on_of_nodup_map hmapped hmem hin hframe
  rw [← hlisted, (Prod.mk.inj hsame).1, hfound]

namespace AddressSpace

variable {space : AddressSpace} {address : VirtualAddress} {target : PhysicalAddress}

theorem physical?_eq_none (h : space.table.find? address.pageNumber = none) :
    space.physical? address = none := by
  rw [physical?, h]
  rfl

theorem physical?_eq_some (h : space.physical? address = some target) :
    ∃ entry, space.table.find? address.pageNumber = some entry ∧
      target.word.toNat = entry.frame.word.toNat + address.offset := by
  obtain ⟨entry, hentry, rfl⟩ := Option.map_eq_some_iff.mp h
  refine ⟨entry, hentry, ?_⟩
  have haligned := entry.isPageAligned_frame
  rw [PhysicalAddress.isPageAligned_iff] at haligned
  have hword := entry.frame.word.toNat_lt
  have hoffset := address.offset.isLt
  rw [UInt64.toNat_add, address.toNat_pageOffset]
  apply Nat.mod_eq_of_lt
  simp only [VirtualAddress.offset, Layout.pageSize] at *
  omega

theorem frameIndex_of_physical? (h : space.physical? address = some target) :
    ∃ entry, space.table.find? address.pageNumber = some entry ∧
      target.frameIndex = entry.frame.frameIndex ∧
      Memory.offset target.word.toNat = address.offset := by
  obtain ⟨entry, hentry, hword⟩ := physical?_eq_some h
  have haligned := entry.isPageAligned_frame
  rw [PhysicalAddress.isPageAligned_iff] at haligned
  have hoffset := address.offset.isLt
  refine ⟨entry, hentry, ?_, Fin.ext ?_⟩
  · rw [PhysicalAddress.frameIndex, hword, PhysicalAddress.frameIndex]
    simp only [Layout.pageSize] at *
    omega
  · change target.word.toNat % Layout.pageSize = address.offset
    rw [hword]
    simp only [Layout.pageSize] at *
    omega

theorem physical?_injective (htable : space.table.WellFormed) (hnodup : space.table.frames.Nodup)
    {other : VirtualAddress} (h : space.physical? address = some target)
    (hother : space.physical? other = some target) : address = other := by
  obtain ⟨entry, hentry, hindex, hoffset⟩ := frameIndex_of_physical? h
  obtain ⟨another, hanother, hsame, hplace⟩ := frameIndex_of_physical? hother
  have hframe : entry.frame = another.frame :=
    PhysicalAddress.eq_of_frameIndex_eq entry.isPageAligned_frame another.isPageAligned_frame
      (hindex.symm.trans hsame)
  exact VirtualAddress.eq_of_place_eq
    (PageTable.place_eq_of_frame_eq htable hnodup hentry hanother hframe)
    (hoffset.symm.trans hplace)

end AddressSpace

end DemandPaging
