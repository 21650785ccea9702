import DemandPaging.Hexadecimal

/-!
The two ways in which an operation ends without a result: a request is refused for a stated reason,
or an assertion of the system does not hold.
-/

namespace Except

variable {α ε ε' : Type}

@[simp] theorem mapError_ok (f : ε → ε') (a : α) : (ok a : Except ε α).mapError f = ok a := rfl

@[simp] theorem mapError_error (f : ε → ε') (e : ε) :
    (error e : Except ε α).mapError f = error (f e) := rfl

end Except

namespace DemandPaging

/-- Why a request is refused. The caller sees the reason as an error number. -/
inductive Refusal
  | outOfMemory
  | invalidArgument
  | alreadyExists
  | protectionFault
  deriving DecidableEq, Repr

namespace Refusal

def errno : Refusal → Nat
  | outOfMemory => 3
  | protectionFault => 6
  | invalidArgument => 8
  | alreadyExists => 22

def message : Refusal → String
  | outOfMemory => "out of memory"
  | invalidArgument => "invalid argument"
  | alreadyExists => "mapping already exists"
  | protectionFault => "bad memory reference"

end Refusal

inductive HeapFailure
  | placing
  | growing
  deriving DecidableEq, Repr

def Refusal.ofHeapFailure : HeapFailure → Refusal
  | .placing => .outOfMemory
  | .growing => .outOfMemory

/-- An assertion that does not hold. It ends the operation, but what was done before it stays
done. -/
inductive Violation
  | additionOverflow
  | subtractionOverflow
  | multiplicationOverflow
  | addressTooLarge
  | levelOutOfRange
  | firstIndexOutOfRange
  | secondIndexOutOfRange
  | unalignedFrame
  | unalignedPage
  | partialPage
  | memoryTooLarge
  | outOfBounds
  | missingBlock
  | interruptsEnabled
  | notAllocated (frame : UInt64)
  | shootdown (page : UInt64)
  deriving DecidableEq, Repr

def Violation.message : Violation → String
  | additionOverflow => "attempt to add with overflow"
  | subtractionOverflow => "attempt to subtract with overflow"
  | multiplicationOverflow => "attempt to multiply with overflow"
  | addressTooLarge => "address exceeds the user address space"
  | levelOutOfRange => "level out of range for a two-level page table (0-1)"
  | firstIndexOutOfRange => "first-level index out of range"
  | secondIndexOutOfRange => "second-level index out of range"
  | unalignedFrame => "frame address must be page-aligned"
  | unalignedPage => "virtual page must be page-aligned"
  | partialPage => "emulated memory must be a whole number of pages"
  | memoryTooLarge => "emulated memory is too large"
  | outOfBounds => "physical address out of bounds"
  | missingBlock => "second-level block should exist"
  | interruptsEnabled => "translation cache written with interrupts enabled"
  | notAllocated frame => "released frame " ++ hex frame ++ " that is not allocated"
  | shootdown page => "tried to do TLB shootdown for " ++ hex page

/-- Why an operation stopped. A session also stops at a name that stands for nothing. -/
inductive Stop
  | refused (reason : Refusal)
  | violated (assertion : Violation)
  | absent
  deriving DecidableEq, Repr

instance : MonadLift (Except Violation) (Except Stop) where
  monadLift x := x.mapError .violated

namespace Stop

variable {α β : Type}

theorem lift_eq_ok_iff {x : Except Violation α} {a : α} :
    (liftM x : Except Stop α) = .ok a ↔ x = .ok a := by
  cases x <;> simp [liftM, monadLift, MonadLift.monadLift]

theorem bind_eq_ok_iff {x : Except Stop α} {f : α → Except Stop β} {b : β} :
    (x >>= f) = .ok b ↔ ∃ a, x = .ok a ∧ f a = .ok b := by
  cases x <;> simp [bind, Except.bind]

end Stop

def Violation.unless (violation : Violation) (condition : Bool) : Except Violation Unit :=
  if condition then .ok () else .error violation

@[simp] theorem Violation.unless_eq_ok_iff (violation : Violation) (condition : Bool) :
    violation.unless condition = .ok () ↔ condition = true := by
  cases condition <;> simp [Violation.unless]

end DemandPaging
