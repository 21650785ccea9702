import DemandPaging.Action

namespace DemandPaging

abbrev Page := Vector UInt8 Layout.pageSize

def Page.zero : Page :=
  Vector.replicate Layout.pageSize 0

/-- Byte memory in whole pages. Every byte is reached on its own, so an access that runs past the
end has done its part before the end. -/
structure Memory where
  pages : Array Page
  deriving DecidableEq

namespace Memory

/-- Sizes are signed words, so the largest is the last whole number of pages below `2 ^ 63`. -/
def maxSize : UInt64 := 0x7ffffffffffff000

def new (size : UInt64) : Except Violation Memory :=
  if size = 0 || size % Layout.pageBytes ≠ 0 then .error .partialPage
  else if size > maxSize then .error .memoryTooLarge
  else .ok ⟨.replicate (size.toNat / Layout.pageSize) Page.zero⟩

def size (memory : Memory) : Nat :=
  memory.pages.size * Layout.pageSize

def offset (address : Nat) : Fin Layout.pageSize :=
  ⟨address % Layout.pageSize, Nat.mod_lt _ (by decide)⟩

def byte? (memory : Memory) (address : Nat) : Option UInt8 :=
  memory.pages[address / Layout.pageSize]?.map fun page => page[offset address]

def setByte (memory : Memory) (address : Nat) (byte : UInt8) : Memory :=
  ⟨memory.pages.modify (address / Layout.pageSize) fun page =>
    page.set (offset address).val byte (offset address).isLt⟩

theorem byte?_setByte (memory : Memory) {a : Nat} (b : Nat) (byte : UInt8) (h : a < memory.size) :
    (memory.setByte a byte).byte? b = if b = a then some byte else memory.byte? b := by
  have hpage : a / Layout.pageSize < memory.pages.size :=
    Nat.div_lt_of_lt_mul (by rwa [Nat.mul_comm])
  simp only [byte?, setByte, Array.getElem?_modify]
  by_cases hp : a / Layout.pageSize = b / Layout.pageSize
  · have hget := Array.getElem?_eq_getElem hpage
    rw [if_pos hp, ← hp, hget]
    by_cases hab : b = a
    · subst hab
      simp
    · have ho : a % Layout.pageSize ≠ b % Layout.pageSize := by
        intro ho
        apply hab
        rw [← Nat.div_add_mod a Layout.pageSize, ← Nat.div_add_mod b Layout.pageSize, hp, ho]
      simp [hab, offset, Vector.getElem_set_ne _ _ ho]
  · have hab : b ≠ a := fun heq => hp (congrArg (· / Layout.pageSize) heq.symm)
    rw [if_neg hp, if_neg hab]

/-- An address as a distance from the start of memory, in which it is asserted to lie. -/
def locate (memory : Memory) (address : PhysicalAddress) : Except Violation UInt64 := do
  Violation.outOfBounds.unless (address.word.toNat < memory.size)
  return address.word

def byte (memory : Memory) (address : Nat) : Except Violation UInt8 :=
  match memory.byte? address with
  | some byte => .ok byte
  | none => .error .outOfBounds

private def readFrom (memory : Memory) (address : Nat) : Nat → Except Violation (List UInt8)
  | 0 => .ok []
  | count + 1 => do
      let byte ← memory.byte address
      return byte :: (← readFrom memory (address + 1) count)

def read (memory : Memory) (address : PhysicalAddress) (count : Nat) :
    Except Violation (List UInt8) :=
  readFrom memory address.word.toNat count

private def writeFrom (address : Nat) : List UInt8 → Action Memory Unit
  | [] => pure ()
  | byte :: rest => do
      let memory ← Action.current
      let _ ← memory.byte address
      Action.update fun memory => memory.setByte address byte
      writeFrom (address + 1) rest

def write (address : PhysicalAddress) (bytes : List UInt8) : Action Memory Unit :=
  writeFrom address.word.toNat bytes

private theorem size_pages_writeFrom (address : Nat) (bytes : List UInt8) (memory : Memory) :
    (writeFrom address bytes memory).state.pages.size = memory.pages.size := by
  induction bytes generalizing address memory with
  | nil => rfl
  | cons byte rest ih =>
      cases hbyte : memory.byte address with
      | ok old =>
          simpa [writeFrom, hbyte, setByte] using
            ih (address + 1) (memory.setByte address byte)
      | error violation => simp [writeFrom, hbyte]

theorem size_pages_write (address : PhysicalAddress) (bytes : List UInt8) (memory : Memory) :
    (write address bytes memory).state.pages.size = memory.pages.size :=
  size_pages_writeFrom address.word.toNat bytes memory

theorem write_singleton (address : PhysicalAddress) (byte : UInt8) {memory : Memory}
    (h : address.word.toNat < memory.size) :
    write address [byte] memory = ⟨.ok (), memory.setByte address.word.toNat byte, []⟩ := by
  have hpage : address.word.toNat / Layout.pageSize < memory.pages.size :=
    Nat.div_lt_of_lt_mul (by rwa [Nat.mul_comm])
  simp [write, writeFrom, Memory.byte, byte?, Array.getElem?_eq_getElem hpage, Outcome.after]

def nonZero (memory : Memory) (address : PhysicalAddress) :
    Except Violation (List (Nat × UInt8)) := do
  let bytes ← memory.read address Layout.pageSize
  return ((List.range Layout.pageSize).zip bytes).filter fun item => item.2 ≠ 0

def zeroFrame (memory : Memory) (frame : PhysicalAddress) : Except Violation Memory := do
  let _ ← memory.locate frame
  return ⟨memory.pages.setIfInBounds frame.frameIndex Page.zero⟩

def copyFrame (memory : Memory) (source target : PhysicalAddress) : Except Violation Memory := do
  let _ ← memory.locate source
  let _ ← memory.locate target
  match memory.pages[source.frameIndex]? with
  | some page => return ⟨memory.pages.setIfInBounds target.frameIndex page⟩
  | none => throw .outOfBounds

end Memory

end DemandPaging
