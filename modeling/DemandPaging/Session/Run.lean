import DemandPaging.Session.State

/-!
Sessions: a list of requests is answered one by one. A request that stops leaves what it did before,
and the next one is answered all the same. At the end of a session all guards, spaces and tables are
given up.
-/

namespace DemandPaging

namespace PoolRequest

def answer (id : PoolId) : PoolRequest → Action FramePool Answer
  | allocate => do return .frame (← FramePool.allocateFrame id)
  | release frame => do
      FramePool.releaseFrame id frame
      return .nothing
  | zero frame => do
      if !frame.isPageAligned then
        return .unaligned
      FramePool.zeroFrame id frame
      return .nothing
  | fill address byte => do
      FramePool.onMemory (Memory.write address (List.replicate Layout.pageSize byte))
      return .nothing
  | write address bytes => do
      FramePool.onMemory (Memory.write address bytes)
      return .nothing
  | read address count => do return .bytes (← (← Action.current).memory.read address count)
  | scan address => do
      let found ← (← Action.current).memory.nonZero address
      return .nonZero found.length (found.take 8)
  | size => do return .word (.ofNat (← Action.current).memory.size)

end PoolRequest

namespace MachineRequest

variable {n : Nat}

def answer (id : Fin n) : MachineRequest → Action (Machines n) Answer
  | mask => do return .level (← Machines.mask id)
  | restore level => do
      Machines.restore id level
      return .nothing
  | insert page frame flags => do
      Machines.insert id (← Mapping.ofWords page frame flags)
      return .nothing
  | invalidate => do
      Machines.invalidate id
      return .nothing
  | lookup addresses => do
      let machine := (← Action.current).get id
      return .lookups (addresses.map fun word => (VirtualAddress.ofWord word).map machine.lookup)

end MachineRequest

namespace Session

variable {n : Nat}

def locate (table : PageTable) (page : PageNumber) (offset : UInt64) :
    Action (Session n) PhysicalAddress := do
  match table.find? page with
  | some entry => entry.frame.add offset
  | none => Action.stop .absent

def reach (space : AddressSpace) (address : UInt64) : Action (Session n) PhysicalAddress := do
  match space.physical? (← VirtualAddress.ofWord address) with
  | some address => return address
  | none => Action.stop .absent

def writeTo (pool : PoolId) (address : PhysicalAddress) (bytes : List UInt8) :
    Action (Session n) Answer := do
  onPool pool (FramePool.onMemory (Memory.write address bytes))
  return .nothing

def readFrom (pool : PoolId) (address : PhysicalAddress) (count : Nat) :
    Action (Session n) Answer := do
  let pool ← named fun s => s.pools[pool]?
  return .bytes (← pool.memory.read address count)

def answerTable (slot : SlotId) : TableRequest → Action (Session n) Answer
  | .new pool => do
      let _ ← named fun s => s.pools[pool]?
      placeTable slot (.empty pool)
      return .done
  | .ensure first => do
      onTable slot (Action.first (PageTable.ensureBlock first))
      return .done
  | .create page dirty => do return .created (← onTable slot (PageTable.createEntry page dirty))
  | .entry page => do return .entry ((← named fun s => s.tables.get? slot).find? page)
  | .mapped => do
      let table ← named fun s => s.tables.get? slot
      return .mapped table.mappedCount table.mappedPages
  | .copy target => do
      let table ← named fun s => s.tables.get? slot
      placeTable target (← onPool table.pool table.copy)
      return .done
  | .destroy => do
      onTable slot PageTable.destroy
      return .nothing
  | .drop => do
      onTable slot PageTable.destroy
      Action.update fun s => { s with tables := s.tables.erase slot }
      return .nothing
  | .poke page offset bytes => do
      let table ← named fun s => s.tables.get? slot
      writeTo table.pool (← locate table page offset) bytes
  | .peek page offset count => do
      let table ← named fun s => s.tables.get? slot
      readFrom table.pool (← locate table page offset) count

def answerSpace (slot : SlotId) : SpaceRequest → Action (Session n) Answer
  | .new pool => do
      let _ ← named fun s => s.pools[pool]?
      placeSpace slot (← AddressSpace.create pool)
      return .done
  | .define address length permissions => do
      onSpace slot (Action.first (AddressSpace.defineRegion address length permissions))
      return .done
  | .stack => do return .word (← onSpace slot (Action.first AddressSpace.defineStack)).word
  | .beginLoad => do
      onSpace slot (Action.first AddressSpace.beginLoad)
      return .done
  | .endLoad processor => do
      let processor ← named fun s => s.processors[processor]?
      onLoad slot (AddressSpace.endLoad processor)
      return .done
  | .info => do return .space (← named fun s => s.spaces.get? slot)
  | .physical addresses => do
      let space ← named fun s => s.spaces.get? slot
      return .physical (addresses.map fun word => (VirtualAddress.ofWord word).map space.physical?)
  | .poke address bytes => do
      let space ← named fun s => s.spaces.get? slot
      writeTo space.table.pool (← reach space address) bytes
  | .peek address count => do
      let space ← named fun s => s.spaces.get? slot
      readFrom space.table.pool (← reach space address) count
  | .copy target => do
      let space ← named fun s => s.spaces.get? slot
      placeSpace target (← onPool space.table.pool space.copy)
      return .done
  | .sameRegions other => do
      let space ← named fun s => s.spaces.get? slot
      let other ← named fun s => s.spaces.get? other
      return .same (space.regions = other.regions)
  | .destroy => do
      onSpace slot AddressSpace.destroy
      Action.update fun s => { s with spaces := s.spaces.erase slot }
      return .nothing
  | .drop => do
      onSpace slot AddressSpace.discard
      Action.update fun s => { s with spaces := s.spaces.erase slot }
      return .nothing

def answerProcessor (processor : Processor n) : ProcessorRequest → Action (Session n) Answer
  | .fault space access address => do
      onProcess space (Context.handleFault processor access address)
      return .done
  | .rawFault space code address => do
      onProcess space (Context.handleRawFault processor code address)
      return .done
  | .activate space => do
      onProcess space (Context.activate processor)
      return .nothing
  | .deactivate space => do
      onProcess space (Context.deactivate processor)
      return .nothing
  | .invalidate => do
      onMachines processor.invalidate
      return .nothing
  | .install page frame flags => do
      let mapping ← Mapping.ofWords page frame flags
      onMachines (processor.install mapping)
      return .nothing
  | .shootdown address => do
      let page ← VirtualAddress.ofWord address
      onMachines (processor.shootdown page)
      return .nothing
  | .machines => return .machines processor.cache processor.interrupts
  | .guard => do
      let guard ← onMachines processor.maskInterrupts
      let index := (← Action.current).guards.size
      Action.update fun s => { s with guards := s.guards.put index guard }
      return .guarded index guard.prior

def answer : Request → Action (Session n) Answer
  | .pool id request => onPool id (request.answer id)
  | .machine id request =>
      if h : id < n then onMachines (request.answer ⟨id, h⟩) else Action.stop .absent
  | .table slot request => answerTable slot request
  | .space slot request => answerSpace slot request
  | .processor id request => do answerProcessor (← named fun s => s.processors[id]?) request
  | .unguard index => do
      let guard ← named fun s => s.guards.get? index
      Action.update fun s => { s with guards := s.guards.erase index }
      onMachines guard.drop
      return .nothing

def close : Action (Session n) Unit := do
  let s ← Action.current
  Action.update fun s => { s with guards := .empty, spaces := .empty, tables := .empty }
  s.guards.values.forM fun guard => onMachines guard.drop
  s.spaces.values.forM giveUpSpace
  s.tables.values.forM giveUpTable

structure PoolCount where
  allocations : Nat
  releases : Nat
  outstanding : Nat

structure MachineCount where
  liveEntries : Nat
  invalidations : Nat
  isMasked : Bool

/-- What is seen of a request: its answer or why it stopped, its events, and the counts after it. -/
structure Report where
  result : Except Stop Answer
  events : List Event
  pools : List PoolCount
  machines : List MachineCount

def poolCounts (s : Session n) : List PoolCount :=
  s.pools.toList.map fun pool => ⟨pool.allocations, pool.releases, pool.outstanding⟩

def machineCounts (s : Session n) : List MachineCount :=
  s.machines.toList.map fun machine =>
    ⟨machine.liveEntries, machine.invalidations, machine.isMasked⟩

def run (s : Session n) : List Request → List Report × Session n
  | [] => ([], s)
  | request :: rest =>
      let outcome := answer request s
      let (reports, last) := run outcome.state rest
      (⟨outcome.result, outcome.events, poolCounts outcome.state, machineCounts outcome.state⟩ ::
        reports,
        last)

end Session

end DemandPaging
