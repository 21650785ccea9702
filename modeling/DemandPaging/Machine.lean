import DemandPaging.Action

/-!
Machines: a cache of 64 mappings and an interrupt level. The cache is written only while interrupts
are masked. A mapping takes the place of one for the same page, else the first free place, and only
in a full cache the place that a generator of pseudo-random words names.
-/

namespace DemandPaging

abbrev CacheSlot := Fin Layout.cacheSlots

structure Machine where
  slots : Vector (Option Mapping) Layout.cacheSlots
  level : InterruptLevel
  /-- The state of the generator that names places in a full cache. -/
  seed : UInt32
  invalidations : Nat
  deriving DecidableEq

namespace Machine

def new : Machine :=
  ⟨Vector.replicate Layout.cacheSlots none, .enabled, 0x2545F491, 0⟩

def isMasked (machine : Machine) : Bool :=
  machine.level = .masked

def liveEntries (machine : Machine) : Nat :=
  machine.slots.toList.countP Option.isSome

def lookup (machine : Machine) (address : VirtualAddress) : Option Mapping :=
  (machine.slots.toList.filterMap id).find? fun mapping => mapping.page = address.pageBase

def nextSeed (seed : UInt32) : UInt32 :=
  let seed := seed ^^^ (seed <<< 13)
  let seed := seed ^^^ (seed >>> 17)
  seed ^^^ (seed <<< 5)

def victim (seed : UInt32) : CacheSlot :=
  ⟨seed.toNat % Layout.cacheSlots, Nat.mod_lt _ (by decide)⟩

def slotOf? (machine : Machine) (page : VirtualAddress) : Option CacheSlot :=
  machine.slots.findFinIdx? fun slot => slot.any fun mapping => mapping.page = page

def freeSlot? (machine : Machine) : Option CacheSlot :=
  machine.slots.findFinIdx? Option.isNone

def fill (machine : Machine) (slot : CacheSlot) (mapping : Mapping) : Machine :=
  { machine with slots := machine.slots.set slot.val (some mapping) slot.isLt }

/-- The machine with a mapping in its cache. The generator moves on only if it names the place. -/
def place (machine : Machine) (mapping : Mapping) : Machine :=
  match machine.slotOf? mapping.page with
  | some slot => machine.fill slot mapping
  | none =>
      match machine.freeSlot? with
      | some slot => machine.fill slot mapping
      | none =>
          let seed := nextSeed machine.seed
          { machine.fill (victim seed) mapping with seed }

def insert (machine : Machine) (mapping : Mapping) : Except Violation Machine := do
  Violation.interruptsEnabled.unless machine.isMasked
  return machine.place mapping

def invalidate (machine : Machine) : Except Violation Machine := do
  Violation.interruptsEnabled.unless machine.isMasked
  return { machine with
    slots := Vector.replicate Layout.cacheSlots none
    invalidations := machine.invalidations + 1 }

end Machine

abbrev Machines (n : Nat) := Vector Machine n

namespace Machines

variable {n : Nat}

def put (machines : Machines n) (id : Fin n) (machine : Machine) : Machines n :=
  machines.set id.val machine id.isLt

def attemptAt (id : Fin n) (f : Machine → Except Violation Machine) : Action (Machines n) Unit :=
  Action.attempt fun machines => do
    return machines.put id (← f (machines.get id))

def mask (id : Fin n) : Action (Machines n) InterruptLevel := do
  let prior := ((← Action.current).get id).level
  attemptAt id fun machine => .ok { machine with level := .masked }
  Action.emit (.masked id.val prior)
  return prior

def restore (id : Fin n) (level : InterruptLevel) : Action (Machines n) Unit := do
  Action.emit (.restoring id.val level)
  attemptAt id fun machine => .ok { machine with level }

def insert (id : Fin n) (mapping : Mapping) : Action (Machines n) Unit := do
  Action.emit (.inserting id.val mapping)
  attemptAt id (·.insert mapping)

def invalidate (id : Fin n) : Action (Machines n) Unit := do
  Action.emit (.invalidating id.val)
  attemptAt id Machine.invalidate

end Machines

end DemandPaging
