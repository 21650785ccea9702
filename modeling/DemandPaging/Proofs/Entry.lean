import DemandPaging.Mapping

namespace DemandPaging

theorem UInt64.or_and_distrib (a b c : UInt64) : (a ||| b) &&& c = (a &&& c) ||| (b &&& c) := by
  rw [← UInt64.toBitVec_inj]
  exact BitVec.and_or_distrib_right

namespace EntryFlags

/-- No bit is set but the two that flags have. -/
def OnlyFlags (flags : EntryFlags) : Prop :=
  flags.raw &&& (validBit ||| dirtyBit) = flags.raw

theorem onlyFlags_ofRaw (raw : UInt64) : (ofRaw raw).OnlyFlags := by
  change raw &&& (validBit ||| dirtyBit) &&& (validBit ||| dirtyBit) = _
  rw [UInt64.and_assoc, UInt64.and_self]
  rfl

theorem onlyFlags_empty : empty.OnlyFlags := rfl

theorem isValid_eq_getLsbD (flags : EntryFlags) : flags.isValid = flags.raw.toBitVec.getLsbD 9 := by
  have hbit : (flags.raw &&& validBit).toBitVec = flags.raw.toBitVec &&& BitVec.twoPow 64 9 := rfl
  have hne : (flags.raw &&& validBit ≠ 0) ↔ flags.raw.toBitVec.getLsbD 9 = true := by
    rw [ne_eq, ← UInt64.toBitVec_inj, hbit, BitVec.and_twoPow]
    cases flags.raw.toBitVec.getLsbD 9 <;> decide
  simp only [isValid, hne, Bool.decide_eq_true]

theorem isDirty_eq_getLsbD (flags : EntryFlags) :
    flags.isDirty = flags.raw.toBitVec.getLsbD 10 := by
  have hbit : (flags.raw &&& dirtyBit).toBitVec = flags.raw.toBitVec &&& BitVec.twoPow 64 10 := rfl
  have hne : (flags.raw &&& dirtyBit ≠ 0) ↔ flags.raw.toBitVec.getLsbD 10 = true := by
    rw [ne_eq, ← UInt64.toBitVec_inj, hbit, BitVec.and_twoPow]
    cases flags.raw.toBitVec.getLsbD 10 <;> decide
  simp only [isDirty, hne, Bool.decide_eq_true]

theorem OnlyFlags.withValid {flags : EntryFlags} (h : flags.OnlyFlags) (valid : Bool) :
    (flags.withValid valid).OnlyFlags := by
  cases valid with
  | true =>
      change (flags.raw ||| validBit) &&& (validBit ||| dirtyBit) = flags.raw ||| validBit
      rw [UInt64.or_and_distrib, h]
      rfl
  | false =>
      change flags.raw &&& ~~~validBit &&& (validBit ||| dirtyBit) = flags.raw &&& ~~~validBit
      rw [UInt64.and_assoc, UInt64.and_comm (~~~validBit), ← UInt64.and_assoc, h]

theorem OnlyFlags.withDirty {flags : EntryFlags} (h : flags.OnlyFlags) (dirty : Bool) :
    (flags.withDirty dirty).OnlyFlags := by
  cases dirty with
  | true =>
      change (flags.raw ||| dirtyBit) &&& (validBit ||| dirtyBit) = flags.raw ||| dirtyBit
      rw [UInt64.or_and_distrib, h]
      rfl
  | false =>
      change flags.raw &&& ~~~dirtyBit &&& (validBit ||| dirtyBit) = flags.raw &&& ~~~dirtyBit
      rw [UInt64.and_assoc, UInt64.and_comm (~~~dirtyBit), ← UInt64.and_assoc, h]

private theorem getLsbD_or (a b : UInt64) (i : Nat) :
    (a ||| b).toBitVec.getLsbD i = (a.toBitVec.getLsbD i || b.toBitVec.getLsbD i) :=
  BitVec.getLsbD_or

private theorem getLsbD_and (a b : UInt64) (i : Nat) :
    (a &&& b).toBitVec.getLsbD i = (a.toBitVec.getLsbD i && b.toBitVec.getLsbD i) :=
  BitVec.getLsbD_and

private theorem getLsbD_withValid (flags : EntryFlags) (valid : Bool) (i : Nat) :
    (flags.withValid valid).raw.toBitVec.getLsbD i =
      if valid then flags.raw.toBitVec.getLsbD i || validBit.toBitVec.getLsbD i
      else flags.raw.toBitVec.getLsbD i && (~~~validBit).toBitVec.getLsbD i := by
  cases valid with
  | true => exact getLsbD_or flags.raw validBit i
  | false => exact getLsbD_and flags.raw (~~~validBit) i

private theorem getLsbD_withDirty (flags : EntryFlags) (dirty : Bool) (i : Nat) :
    (flags.withDirty dirty).raw.toBitVec.getLsbD i =
      if dirty then flags.raw.toBitVec.getLsbD i || dirtyBit.toBitVec.getLsbD i
      else flags.raw.toBitVec.getLsbD i && (~~~dirtyBit).toBitVec.getLsbD i := by
  cases dirty with
  | true => exact getLsbD_or flags.raw dirtyBit i
  | false => exact getLsbD_and flags.raw (~~~dirtyBit) i

private theorem getLsbD_validBit :
    validBit.toBitVec.getLsbD 9 = true ∧ (~~~validBit).toBitVec.getLsbD 9 = false ∧
      validBit.toBitVec.getLsbD 10 = false ∧ (~~~validBit).toBitVec.getLsbD 10 = true := by
  decide

private theorem getLsbD_dirtyBit :
    dirtyBit.toBitVec.getLsbD 10 = true ∧ (~~~dirtyBit).toBitVec.getLsbD 10 = false ∧
      dirtyBit.toBitVec.getLsbD 9 = false ∧ (~~~dirtyBit).toBitVec.getLsbD 9 = true := by
  decide

@[simp] theorem isValid_withValid (flags : EntryFlags) (valid : Bool) :
    (flags.withValid valid).isValid = valid := by
  rw [isValid_eq_getLsbD, getLsbD_withValid, getLsbD_validBit.1, getLsbD_validBit.2.1,
    Bool.or_true, Bool.and_false]
  cases valid <;> rfl

@[simp] theorem isDirty_withValid (flags : EntryFlags) (valid : Bool) :
    (flags.withValid valid).isDirty = flags.isDirty := by
  rw [isDirty_eq_getLsbD, getLsbD_withValid, getLsbD_validBit.2.2.1, getLsbD_validBit.2.2.2,
    Bool.or_false, Bool.and_true, ite_self, isDirty_eq_getLsbD]

@[simp] theorem isValid_withDirty (flags : EntryFlags) (dirty : Bool) :
    (flags.withDirty dirty).isValid = flags.isValid := by
  rw [isValid_eq_getLsbD, getLsbD_withDirty, getLsbD_dirtyBit.2.2.1, getLsbD_dirtyBit.2.2.2,
    Bool.or_false, Bool.and_true, ite_self, isValid_eq_getLsbD]

@[simp] theorem isDirty_withDirty (flags : EntryFlags) (dirty : Bool) :
    (flags.withDirty dirty).isDirty = dirty := by
  rw [isDirty_eq_getLsbD, getLsbD_withDirty, getLsbD_dirtyBit.1, getLsbD_dirtyBit.2.1,
    Bool.or_true, Bool.and_false]
  cases dirty <;> rfl

end EntryFlags

namespace PhysicalAddress

theorem and_pageMask_of_isPageAligned {address : PhysicalAddress}
    (h : address.isPageAligned = true) :
    address.word &&& Layout.pageMask = address.word := by
  rw [isPageAligned_iff] at h
  rw [← UInt64.toNat_inj, Layout.toNat_and_pageMask]
  exact Nat.div_mul_cancel (Nat.dvd_of_mod_eq_zero h)

theorem isPageAligned_and_pageMask (word : UInt64) :
    isPageAligned ⟨word &&& Layout.pageMask⟩ = true := by
  rw [isPageAligned_iff, Layout.toNat_and_pageMask]
  exact Nat.mul_mod_left _ _

end PhysicalAddress

namespace PageEntry

def pack (frame : PhysicalAddress) (flags : EntryFlags) : PageEntry :=
  ⟨(frame.word &&& Layout.pageMask) ||| flags.raw⟩

theorem new_of_isPageAligned {frame : PhysicalAddress} (h : frame.isPageAligned = true)
    (flags : EntryFlags) : new frame flags = .ok (pack frame flags) := by
  rw [new, h]
  rfl

theorem eq_pack_of_new {frame : PhysicalAddress} {flags : EntryFlags} {entry : PageEntry}
    (h : new frame flags = .ok entry) : entry = pack frame flags := by
  cases haligned : frame.isPageAligned with
  | true =>
      rw [new_of_isPageAligned haligned] at h
      exact (Except.ok.inj h).symm
  | false =>
      rw [new, haligned] at h
      cases h

theorem isPageAligned_frame (entry : PageEntry) : entry.frame.isPageAligned = true :=
  PhysicalAddress.isPageAligned_and_pageMask entry.raw

theorem frame_pack {frame : PhysicalAddress} {flags : EntryFlags} (h : frame.isPageAligned = true)
    (hflags : flags.OnlyFlags) : (pack frame flags).frame = frame := by
  have hmask : (EntryFlags.validBit ||| EntryFlags.dirtyBit) &&& Layout.pageMask = 0 := by decide
  change PhysicalAddress.mk (((frame.word &&& Layout.pageMask) ||| flags.raw) &&& Layout.pageMask) =
    frame
  rw [UInt64.or_and_distrib, UInt64.and_assoc, UInt64.and_self,
    PhysicalAddress.and_pageMask_of_isPageAligned h, ← hflags, UInt64.and_assoc, hmask,
    UInt64.and_zero,
    UInt64.or_zero]

theorem flags_pack (frame : PhysicalAddress) {flags : EntryFlags} (hflags : flags.OnlyFlags) :
    (pack frame flags).flags = flags := by
  have hmask : Layout.pageMask &&& (EntryFlags.validBit ||| EntryFlags.dirtyBit) = 0 := by decide
  change EntryFlags.mk (((frame.word &&& Layout.pageMask) ||| flags.raw) &&&
    (EntryFlags.validBit ||| EntryFlags.dirtyBit)) = flags
  rw [UInt64.or_and_distrib, UInt64.and_assoc, hmask, UInt64.and_zero, UInt64.zero_or, hflags]

def marked (entry : PageEntry) (dirty : Bool) : PageEntry :=
  pack entry.frame (entry.flags.withDirty dirty)

theorem withDirty_eq (entry : PageEntry) (dirty : Bool) :
    entry.withDirty dirty = .ok (entry.marked dirty) :=
  new_of_isPageAligned entry.isPageAligned_frame _

theorem onlyFlags_flags (entry : PageEntry) : entry.flags.OnlyFlags :=
  EntryFlags.onlyFlags_ofRaw entry.raw

@[simp] theorem frame_marked (entry : PageEntry) (dirty : Bool) :
    (entry.marked dirty).frame = entry.frame :=
  frame_pack entry.isPageAligned_frame (entry.onlyFlags_flags.withDirty dirty)

@[simp] theorem isValid_marked (entry : PageEntry) (dirty : Bool) :
    (entry.marked dirty).isValid = entry.isValid := by
  rw [isValid, marked, flags_pack _ (entry.onlyFlags_flags.withDirty dirty),
    EntryFlags.isValid_withDirty, isValid]

@[simp] theorem isDirty_marked (entry : PageEntry) (dirty : Bool) :
    (entry.marked dirty).isDirty = dirty := by
  rw [isDirty, marked, flags_pack _ (entry.onlyFlags_flags.withDirty dirty),
    EntryFlags.isDirty_withDirty]

def fresh (frame : PhysicalAddress) (dirty : Bool) : PageEntry :=
  pack frame ((EntryFlags.empty.withValid true).withDirty dirty)

def moved (entry : PageEntry) (frame : PhysicalAddress) : PageEntry :=
  pack frame (entry.flags.withValid true)

private theorem onlyFlags_fresh (dirty : Bool) :
    ((EntryFlags.empty.withValid true).withDirty dirty).OnlyFlags :=
  (EntryFlags.onlyFlags_empty.withValid true).withDirty dirty

theorem frame_fresh {frame : PhysicalAddress} (h : frame.isPageAligned = true) (dirty : Bool) :
    (fresh frame dirty).frame = frame :=
  frame_pack h (onlyFlags_fresh dirty)

@[simp] theorem isValid_fresh (frame : PhysicalAddress) (dirty : Bool) :
    (fresh frame dirty).isValid = true := by
  rw [isValid, fresh, flags_pack _ (onlyFlags_fresh dirty), EntryFlags.isValid_withDirty,
    EntryFlags.isValid_withValid]

@[simp] theorem isDirty_fresh (frame : PhysicalAddress) (dirty : Bool) :
    (fresh frame dirty).isDirty = dirty := by
  rw [isDirty, fresh, flags_pack _ (onlyFlags_fresh dirty), EntryFlags.isDirty_withDirty]

theorem frame_moved {frame : PhysicalAddress} (h : frame.isPageAligned = true) (entry : PageEntry) :
    (entry.moved frame).frame = frame :=
  frame_pack h (entry.onlyFlags_flags.withValid true)

@[simp] theorem isValid_moved (entry : PageEntry) (frame : PhysicalAddress) :
    (entry.moved frame).isValid = true := by
  rw [isValid, moved, flags_pack _ (entry.onlyFlags_flags.withValid true),
    EntryFlags.isValid_withValid]

@[simp] theorem isDirty_moved (entry : PageEntry) (frame : PhysicalAddress) :
    (entry.moved frame).isDirty = entry.isDirty := by
  rw [isDirty, moved, flags_pack _ (entry.onlyFlags_flags.withValid true),
    EntryFlags.isDirty_withValid,
    isDirty]

end PageEntry

end DemandPaging
