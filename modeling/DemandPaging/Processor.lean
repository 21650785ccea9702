import DemandPaging.Machine

namespace DemandPaging

/-- A processor writes the cache of one machine while the interrupts of a machine, which need not be
the same, are masked. -/
structure Processor (n : Nat) where
  cache : Fin n
  interrupts : Fin n
  deriving DecidableEq, Repr

/-- The promise to put an interrupt level back. -/
structure Guard (n : Nat) where
  machine : Fin n
  prior : InterruptLevel
  deriving DecidableEq, Repr

namespace Guard

variable {n : Nat}

def take (machine : Fin n) : Action (Machines n) (Guard n) := do
  return ⟨machine, ← Machines.mask machine⟩

def drop (guard : Guard n) : Action (Machines n) Unit :=
  Machines.restore guard.machine guard.prior

end Guard

namespace Processor

variable {n : Nat}

def maskInterrupts (processor : Processor n) : Action (Machines n) (Guard n) :=
  Guard.take processor.interrupts

def whileMasked (processor : Processor n) (x : Action (Machines n) Unit) :
    Action (Machines n) Unit := do
  let guard ← processor.maskInterrupts
  Action.ensuring x guard.drop

def invalidate (processor : Processor n) : Action (Machines n) Unit :=
  processor.whileMasked (Machines.invalidate processor.cache)

def install (processor : Processor n) (mapping : Mapping) : Action (Machines n) Unit := do
  Action.log
    (.installed mapping.page mapping.entry.frame mapping.entry.isDirty)
  processor.whileMasked (Machines.insert processor.cache mapping)

/-- No processor reaches the cache of another one. -/
def shootdown (_ : Processor n) (page : VirtualAddress) : Action (Machines n) Unit :=
  Action.violate (.shootdown page.word)

end Processor

end DemandPaging
