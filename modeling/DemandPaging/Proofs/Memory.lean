import DemandPaging.Memory

namespace DemandPaging

namespace PhysicalAddress

theorem toNat_word_ofFrameIndex {index : Nat} (h : index * Layout.pageSize < UInt64.size) :
    (ofFrameIndex index).word.toNat = index * Layout.pageSize := by
  rw [ofFrameIndex, UInt64.toNat_ofNat', Nat.mod_eq_of_lt h]

theorem ofFrameIndex_eq_iff {index : Nat} (h : index * Layout.pageSize < UInt64.size)
    {frame : PhysicalAddress} :
    ofFrameIndex index = frame ↔ frame.word.toNat = index * Layout.pageSize := by
  rw [← toNat_word_ofFrameIndex h, UInt64.toNat_inj]
  exact ⟨fun heq => heq ▸ rfl, fun hword => congrArg PhysicalAddress.mk hword.symm⟩

theorem frameIndex_ofFrameIndex {index : Nat} (h : index * Layout.pageSize < UInt64.size) :
    (ofFrameIndex index).frameIndex = index := by
  rw [frameIndex, toNat_word_ofFrameIndex h]
  exact Nat.mul_div_cancel _ (by decide)

theorem ofFrameIndex_frameIndex {address : PhysicalAddress} (h : address.isPageAligned = true) :
    ofFrameIndex address.frameIndex = address := by
  rw [isPageAligned_iff] at h
  rcases address with ⟨word⟩
  rw [frameIndex, ofFrameIndex, Nat.div_mul_cancel (Nat.dvd_of_mod_eq_zero h), UInt64.ofNat_toNat]

theorem isPageAligned_ofFrameIndex {index : Nat} (h : index * Layout.pageSize < UInt64.size) :
    (ofFrameIndex index).isPageAligned = true := by
  rw [isPageAligned_iff, toNat_word_ofFrameIndex h]
  exact Nat.mul_mod_left _ _

end PhysicalAddress

namespace Memory

theorem size_of_new {size : UInt64} {memory : Memory} (h : new size = .ok memory) :
    memory.size = size.toNat ∧ size.toNat ≤ maxSize.toNat := by
  unfold new at h
  split at h
  · contradiction
  · rename_i hwhole
    split at h
    · contradiction
    · rename_i hmax
      obtain rfl := Except.ok.inj h
      simp only [Bool.or_eq_true, decide_eq_true_eq, not_or, ne_eq, Decidable.not_not] at hwhole
      have hmod : size.toNat % Layout.pageSize = 0 := by
        rw [← show (size % Layout.pageBytes).toNat = size.toNat % Layout.pageSize from
          UInt64.toNat_mod ..,
          hwhole.2]
        rfl
      have hle : size.toNat ≤ maxSize.toNat := UInt64.le_iff_toNat_le.mp (UInt64.not_lt.mp hmax)
      rw [Memory.size, Array.size_replicate, Nat.div_mul_cancel (Nat.dvd_of_mod_eq_zero hmod)]
      exact ⟨rfl, hle⟩

def contents (memory : Memory) (frame : PhysicalAddress) : Page :=
  memory.pages[frame.frameIndex]?.getD Page.zero

def withContents (memory : Memory) (frame : PhysicalAddress) (page : Page) : Memory :=
  ⟨memory.pages.setIfInBounds frame.frameIndex page⟩

def Holds (memory : Memory) (frame : PhysicalAddress) : Prop :=
  frame.frameIndex < memory.pages.size

@[simp] theorem size_pages_withContents (memory : Memory) (frame : PhysicalAddress) (page : Page) :
    (memory.withContents frame page).pages.size = memory.pages.size :=
  Array.size_setIfInBounds

theorem contents_withContents {memory : Memory} {frame : PhysicalAddress} (h : memory.Holds frame)
    (page : Page) (other : PhysicalAddress) :
    (memory.withContents frame page).contents other =
      if other.frameIndex = frame.frameIndex then page else memory.contents other := by
  rw [contents, withContents, Array.getElem?_setIfInBounds]
  by_cases heq : other.frameIndex = frame.frameIndex
  · have hframe : frame.frameIndex < memory.pages.size := h
    rw [if_pos heq.symm, if_pos heq, if_pos hframe, Option.getD_some]
  · rw [if_neg (Ne.symm heq), if_neg heq, contents]

theorem word_lt_size {memory : Memory} {frame : PhysicalAddress} (h : memory.Holds frame) :
    frame.word.toNat < memory.size := by
  rw [Holds, PhysicalAddress.frameIndex] at h
  exact (Nat.div_lt_iff_lt_mul (by decide)).mp h

theorem locate_of_holds {memory : Memory} {frame : PhysicalAddress} (h : memory.Holds frame) :
    memory.locate frame = .ok frame.word := by
  rw [locate, decide_eq_true (word_lt_size h)]
  rfl

theorem zeroFrame_of_holds {memory : Memory} {frame : PhysicalAddress} (h : memory.Holds frame) :
    memory.zeroFrame frame = .ok (memory.withContents frame Page.zero) := by
  rw [zeroFrame, locate_of_holds h]
  rfl

theorem copyFrame_of_holds {memory : Memory} {source target : PhysicalAddress}
    (hsource : memory.Holds source) (htarget : memory.Holds target) :
    memory.copyFrame source target = .ok (memory.withContents target (memory.contents source)) := by
  have hpage : memory.pages[source.frameIndex]? = some (memory.contents source) := by
    rw [contents, Array.getElem?_eq_getElem hsource, Option.getD_some]
  rw [copyFrame, locate_of_holds hsource, locate_of_holds htarget, hpage]
  rfl

theorem byte?_frame {memory : Memory} {frame : PhysicalAddress} (h : memory.Holds frame)
    (haligned : frame.isPageAligned = true) (place : Fin Layout.pageSize) :
    memory.byte? (frame.word.toNat + place) = some (memory.contents frame)[place] := by
  rw [PhysicalAddress.isPageAligned_iff] at haligned
  have hindex : (frame.word.toNat + place) / Layout.pageSize = frame.frameIndex := by
    have := place.isLt
    rw [PhysicalAddress.frameIndex]
    simp only [Layout.pageSize] at *
    omega
  have hoffset : offset (frame.word.toNat + place) = place := by
    apply Fin.ext
    have := place.isLt
    simp only [offset, Layout.pageSize] at *
    omega
  simp only [byte?, hindex, hoffset, contents, Array.getElem?_eq_getElem h, Option.map_some,
    Option.getD_some]

theorem contents_setByte_of_ne (memory : Memory) {address : Nat} (byte : UInt8)
    {frame : PhysicalAddress} (h : frame.frameIndex ≠ address / Layout.pageSize) :
    (memory.setByte address byte).contents frame = memory.contents frame := by
  rw [contents, setByte, Array.getElem?_modify, if_neg (Ne.symm h), contents]

/-- All bytes of a frame are there in one memory, and in another one they are the bytes of another
frame. -/
def SameBytes (memory : Memory) (frame : PhysicalAddress) (other : Memory)
    (copied : PhysicalAddress) : Prop :=
  ∀ place : Fin Layout.pageSize, ∃ byte, memory.byte? (frame.word.toNat + place) = some byte ∧
    other.byte? (copied.word.toNat + place) = some byte

theorem sameBytes_of_contents {memory other : Memory} {frame copied : PhysicalAddress}
    (hframe : memory.Holds frame) (haligned : frame.isPageAligned = true)
    (hcopied : other.Holds copied)
    (hother : copied.isPageAligned = true) (h : other.contents copied = memory.contents frame) :
    memory.SameBytes frame other copied := by
  intro place
  refine ⟨(memory.contents frame)[place], byte?_frame hframe haligned place, ?_⟩
  rw [byte?_frame hcopied hother place, h]

end Memory

end DemandPaging
