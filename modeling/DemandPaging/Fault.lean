import DemandPaging.AddressSpace

/-!
Faults of a processor that runs in an address space, or in none. A fault is denied or it ends with a
mapping in the cache of the processor.
-/

namespace DemandPaging

/-- What a process runs in: an address space with the pool of its frames, or nothing. -/
abbrev Context := Option (AddressSpace × FramePool)

namespace Context

variable {n : Nat}

def serve (processor : Processor n) (access : Access) (page : PageNumber) :
    Action ((AddressSpace × FramePool) × Machines n) Unit := do
  let mapping ← Action.first (AddressSpace.resolve access page)
  Action.second (processor.install mapping)

/-- Handles a fault. A store to a page that is present but not writable, and any access to address
zero, is denied in every context. -/
def handleFault (processor : Processor n) (access : Access) (address : UInt64) :
    Action (Context × Machines n) Unit :=
  if access = .readOnlyViolation then (FaultReport.readOnlyPage address).deny
  else if address = 0 then FaultReport.nullAddress.deny
  else
    Action.ifPresent
      (match VirtualAddress.ofWord? address with
        | some address => serve processor access address.pageNumber
        | none => (FaultReport.outsideSpace address).deny)
      (FaultReport.noSpace address).deny

def handleRawFault (processor : Processor n) (code : UInt32) (address : UInt64) :
    Action (Context × Machines n) Unit := do
  match Access.ofCode code with
  | .ok access => handleFault processor access address
  | .error reason =>
      Action.log (.faulted (.unknownCode address code))
      Action.refuse reason

def activate (processor : Processor n) : Action (Context × Machines n) Unit :=
  Action.ifPresent (Action.second processor.invalidate) (pure ())

def deactivate (processor : Processor n) : Action (Context × Machines n) Unit :=
  activate processor

end Context

end DemandPaging
