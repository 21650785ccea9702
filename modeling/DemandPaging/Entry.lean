import DemandPaging.Address.Physical

namespace DemandPaging

/-- The flags of an entry, of which only the bits `valid` and `dirty` may be set. -/
structure EntryFlags where
  raw : UInt64
  deriving DecidableEq, Repr

namespace EntryFlags

def validBit : UInt64 := 0x200

def dirtyBit : UInt64 := 0x400

def empty : EntryFlags :=
  ⟨0⟩

instance : Inhabited EntryFlags :=
  ⟨empty⟩

/-- The flags of a word. All other bits are dropped. -/
def ofRaw (raw : UInt64) : EntryFlags :=
  ⟨raw &&& (validBit ||| dirtyBit)⟩

def isValid (flags : EntryFlags) : Bool :=
  flags.raw &&& validBit ≠ 0

def isDirty (flags : EntryFlags) : Bool :=
  flags.raw &&& dirtyBit ≠ 0

private def withBit (flags : EntryFlags) (bit : UInt64) (on : Bool) : EntryFlags :=
  if on then ⟨flags.raw ||| bit⟩ else ⟨flags.raw &&& ~~~bit⟩

def withValid (flags : EntryFlags) (valid : Bool) : EntryFlags :=
  flags.withBit validBit valid

def withDirty (flags : EntryFlags) (dirty : Bool) : EntryFlags :=
  flags.withBit dirtyBit dirty

def shown (flags : EntryFlags) : Shown :=
  .applied "EntryFlags" (.atom (toString flags.raw.toNat))

end EntryFlags

/-- One word that holds a page-aligned frame, and in the bits below it whether the entry is valid
and whether the page may be written. -/
structure PageEntry where
  raw : UInt64
  deriving DecidableEq, Repr, Inhabited

namespace PageEntry

def new (frame : PhysicalAddress) (flags : EntryFlags) : Except Violation PageEntry := do
  Violation.unalignedFrame.unless frame.isPageAligned
  return ⟨(frame.word &&& Layout.pageMask) ||| flags.raw⟩

def frame (entry : PageEntry) : PhysicalAddress :=
  ⟨entry.raw &&& Layout.pageMask⟩

def flags (entry : PageEntry) : EntryFlags :=
  .ofRaw entry.raw

def isValid (entry : PageEntry) : Bool :=
  entry.flags.isValid

def isDirty (entry : PageEntry) : Bool :=
  entry.flags.isDirty

def withDirty (entry : PageEntry) (dirty : Bool) : Except Violation PageEntry :=
  new entry.frame (entry.flags.withDirty dirty)

def shown (entry : PageEntry) : Shown :=
  .applied "PageEntry" (.atom (toString entry.raw.toNat))

end PageEntry

end DemandPaging
