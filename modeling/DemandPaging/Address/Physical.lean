import DemandPaging.Checked
import DemandPaging.Layout
import DemandPaging.Shown

namespace DemandPaging

/-- An address of physical memory. Any word is one; frames are the page-aligned ones. -/
structure PhysicalAddress where
  word : UInt64
  deriving DecidableEq, Repr, Inhabited

namespace PhysicalAddress

instance : Ord PhysicalAddress where
  compare a b := compare a.word b.word

instance : ToString PhysicalAddress where
  toString address := hex address.word

def shown (address : PhysicalAddress) : Shown :=
  .applied "PhysicalAddress" (.atom (hex address.word))

def isPageAligned (address : PhysicalAddress) : Bool :=
  address.word % Layout.pageBytes = 0

def pageBase (address : PhysicalAddress) : PhysicalAddress :=
  ⟨address.word &&& Layout.pageMask⟩

def add (address : PhysicalAddress) (offset : UInt64) : Except Violation PhysicalAddress :=
  (Checked.add address.word offset).map PhysicalAddress.mk

def frameIndex (address : PhysicalAddress) : Nat :=
  address.word.toNat / Layout.pageSize

def ofFrameIndex (index : Nat) : PhysicalAddress :=
  ⟨UInt64.ofNat (index * Layout.pageSize)⟩

@[simp] theorem isPageAligned_iff (address : PhysicalAddress) :
    address.isPageAligned = true ↔ address.word.toNat % Layout.pageSize = 0 := by
  simp [isPageAligned, Layout.pageBytes, ← UInt64.toNat_inj]

end PhysicalAddress

end DemandPaging
