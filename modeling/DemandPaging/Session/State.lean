import DemandPaging.Session.Request
import DemandPaging.Session.Slots

namespace DemandPaging

/-- A system of frame pools, machines and processors, with page tables and address spaces in slots
and guards in the order in which they were taken. -/
structure Session (n : Nat) where
  pools : Array FramePool
  machines : Machines n
  processors : Array (Processor n)
  tables : Slots PageTable
  spaces : Slots AddressSpace
  guards : Slots (Guard n)

namespace Session

variable {n : Nat} {α : Type}

def new (pools : Array FramePool) (processors : Array (Processor n)) : Session n :=
  ⟨pools, Vector.replicate n Machine.new, processors, .empty, .empty, .empty⟩

def putPool (id : PoolId) (pool : FramePool) (s : Session n) : Session n :=
  { s with pools := s.pools.setIfInBounds id pool }

def onPool (id : PoolId) (x : Action FramePool α) : Action (Session n) α :=
  x.onSome (fun s => s.pools[id]?) (putPool id)

def onMachines (x : Action (Machines n) α) : Action (Session n) α :=
  x.on Session.machines fun machines s => { s with machines }

def table? (slot : SlotId) (s : Session n) : Option (PageTable × FramePool) := do
  let table ← s.tables.get? slot
  return (table, ← s.pools[table.pool]?)

def putTable (slot : SlotId) (t : PageTable × FramePool) (s : Session n) : Session n :=
  { putPool t.1.pool t.2 s with tables := s.tables.put slot t.1 }

def onTable (slot : SlotId) (x : Action (PageTable × FramePool) α) : Action (Session n) α :=
  x.onSome (table? slot) (putTable slot)

def space? (slot : SlotId) (s : Session n) : Option (AddressSpace × FramePool) := do
  let space ← s.spaces.get? slot
  return (space, ← s.pools[space.table.pool]?)

def putSpace (slot : SlotId) (t : AddressSpace × FramePool) (s : Session n) : Session n :=
  { putPool t.1.table.pool t.2 s with spaces := s.spaces.put slot t.1 }

def onSpace (slot : SlotId) (x : Action (AddressSpace × FramePool) α) : Action (Session n) α :=
  x.onSome (space? slot) (putSpace slot)

def onLoad (slot : SlotId) (x : Action (AddressSpace × Machines n) α) : Action (Session n) α :=
  x.onSome (fun s => (s.spaces.get? slot).map fun space => (space, s.machines)) fun t s =>
    { s with spaces := s.spaces.put slot t.1, machines := t.2 }

/-- An operation on a process that runs in the space of a slot, or in none if the slot is empty. -/
def onProcess (slot : SlotId) (x : Action (Context × Machines n) α) : Action (Session n) α :=
  x.on (fun s => (space? slot s, s.machines)) fun t s =>
    match t.1 with
    | some space => { putSpace slot space s with machines := t.2 }
    | none => { s with machines := t.2 }

def named (value : Session n → Option α) : Action (Session n) α := do
  match value (← Action.current) with
  | some value => return value
  | none => Action.stop .absent

def giveUpTable (table : PageTable) : Action (Session n) Unit :=
  onPool table.pool (Action.consuming table PageTable.destroy)

def giveUpSpace (space : AddressSpace) : Action (Session n) Unit :=
  onPool space.table.pool (Action.consuming space AddressSpace.discard)

/-- Puts a table into a slot, and then gives up the one that was there. -/
def placeTable (slot : SlotId) (table : PageTable) : Action (Session n) Unit := do
  let old := (← Action.current).tables.get? slot
  Action.update fun s => { s with tables := s.tables.put slot table }
  if let some old := old then
    giveUpTable old

def placeSpace (slot : SlotId) (space : AddressSpace) : Action (Session n) Unit := do
  let old := (← Action.current).spaces.get? slot
  Action.update fun s => { s with spaces := s.spaces.put slot space }
  if let some old := old then
    giveUpSpace old

end Session

end DemandPaging
