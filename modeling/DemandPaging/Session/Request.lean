import DemandPaging.Fault

namespace DemandPaging

abbrev SlotId := Nat

inductive PoolRequest
  | allocate
  | release (frame : PhysicalAddress)
  | zero (frame : PhysicalAddress)
  | fill (address : PhysicalAddress) (byte : UInt8)
  | write (address : PhysicalAddress) (bytes : List UInt8)
  | read (address : PhysicalAddress) (count : Nat)
  | scan (address : PhysicalAddress)
  | size

inductive MachineRequest
  | mask
  | restore (level : InterruptLevel)
  | insert (page frame flags : UInt64)
  | invalidate
  | lookup (addresses : List UInt64)

inductive TableRequest
  | new (pool : PoolId)
  | ensure (first : UInt64)
  | create (page : PageNumber) (dirty : Bool)
  | entry (page : PageNumber)
  | mapped
  | copy (target : SlotId)
  | destroy
  | drop
  | poke (page : PageNumber) (offset : UInt64) (bytes : List UInt8)
  | peek (page : PageNumber) (offset : UInt64) (count : Nat)

inductive SpaceRequest
  | new (pool : PoolId)
  | define (address length : UInt64) (permissions : Permissions)
  | stack
  | beginLoad
  | endLoad (processor : Nat)
  | info
  | physical (addresses : List UInt64)
  | poke (address : UInt64) (bytes : List UInt8)
  | peek (address : UInt64) (count : Nat)
  | copy (target : SlotId)
  | sameRegions (other : SlotId)
  | destroy
  | drop

inductive ProcessorRequest
  | fault (space : SlotId) (access : Access) (address : UInt64)
  | rawFault (space : SlotId) (code : UInt32) (address : UInt64)
  | activate (space : SlotId)
  | deactivate (space : SlotId)
  | invalidate
  | install (page frame flags : UInt64)
  | shootdown (address : UInt64)
  | machines
  | guard

inductive Request
  | pool (id : PoolId) (request : PoolRequest)
  | machine (id : Nat) (request : MachineRequest)
  | table (slot : SlotId) (request : TableRequest)
  | space (slot : SlotId) (request : SpaceRequest)
  | processor (id : Nat) (request : ProcessorRequest)
  | unguard (guard : Nat)

inductive Answer
  | nothing
  | done
  | unaligned
  | word (word : UInt64)
  | frame (frame : Option PhysicalAddress)
  | bytes (bytes : List UInt8)
  | nonZero (count : Nat) (start : List (Nat × UInt8))
  | level (level : InterruptLevel)
  | lookups (found : List (Except Violation (Option Mapping)))
  | created (entry : PageEntry)
  | entry (entry : Option PageEntry)
  | mapped (count : Nat) (pages : List (PageNumber × PageEntry))
  | space (space : AddressSpace)
  | physical (found : List (Except Violation (Option PhysicalAddress)))
  | same (same : Bool)
  | machines (cache interrupts : Nat)
  | guarded (guard : Nat) (prior : InterruptLevel)

end DemandPaging
