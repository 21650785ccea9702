import DemandPaging.Failure
import DemandPaging.Permissions

namespace DemandPaging

/-- What the processor was doing when it faulted. The last kind is a store to a page whose mapping
is present but not writable. -/
inductive Access
  | read
  | write
  | execute
  | readOnlyViolation
  deriving DecidableEq, Repr

namespace Access

/-- The kind that a processor reports as a number. Execution is never reported this way. -/
def ofCode : UInt32 → Except Refusal Access
  | 0 => .ok read
  | 1 => .ok write
  | 2 => .ok readOnlyViolation
  | _ => .error .invalidArgument

/-- Every page of a region may be read, whatever the permissions say. -/
def allowedBy : Access → Permissions → Bool
  | read, _ => true
  | write, permissions => permissions.writable
  | execute, permissions => permissions.executable
  | readOnlyViolation, _ => false

instance : ToString Access where
  toString
    | read => "Read"
    | write => "Write"
    | execute => "Execute"
    | readOnlyViolation => "ReadOnlyViolation"

end Access

end DemandPaging
