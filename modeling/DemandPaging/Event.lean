import DemandPaging.Access
import DemandPaging.PageNumber
import DemandPaging.Mapping

namespace DemandPaging

inductive InterruptLevel
  | enabled
  | masked
  deriving DecidableEq, Repr

instance : ToString InterruptLevel where
  toString
    | .enabled => "enabled"
    | .masked => "masked"

inductive FaultReport
  | readOnlyPage (address : UInt64)
  | nullAddress
  | noSpace (address : UInt64)
  | outsideSpace (address : UInt64)
  | unknownCode (address : UInt64) (code : UInt32)
  | noRegions (page : VirtualAddress)
  | outsideRegions (page : VirtualAddress)
  | notPermitted (page : VirtualAddress) (access : Access) (permissions : Permissions)
  deriving DecidableEq, Repr

instance : ToString FaultReport where
  toString
    | .readOnlyPage address => "fault at " ++ hex address ++ ": write to read-only page"
    | .nullAddress => "fault at null address"
    | .noSpace address => "fault at " ++ hex address ++ ": no address space"
    | .outsideSpace address => "fault at " ++ hex address ++ ": outside the user address space"
    | .unknownCode address code =>
        "fault at " ++ hex address ++ ": unknown fault code " ++ toString code.toNat
    | .noRegions page => "fault at " ++ toString page ++ ": no regions defined"
    | .outsideRegions page => "fault at " ++ toString page ++ ": outside every region"
    | .notPermitted page access permissions =>
        "fault at " ++ toString page ++ ": " ++ toString access ++ " not permitted by " ++
          toString permissions

inductive Severity
  | debug
  | trace
  deriving DecidableEq, Repr

instance : ToString Severity where
  toString
    | .debug => "DEBUG"
    | .trace => "TRACE"

inductive Record
  | mapped (page : PageNumber) (frame : PhysicalAddress)
  | released (frames : Nat)
  | installed (page : VirtualAddress) (frame : PhysicalAddress) (dirty : Bool)
  | created
  | copied (regions pages : Nat)
  | destroying (pages : Nat)
  | defined (base : VirtualAddress) (finish : UInt64) (permissions : Permissions)
  | loadStarted
  | loadFinished
  | faulted (report : FaultReport)
  deriving DecidableEq, Repr

namespace Record

def severity : Record → Severity
  | mapped .. | released .. | installed .. => .trace
  | created | copied .. | destroying .. | defined .. | loadStarted | loadFinished
  | faulted .. => .debug

def text : Record → String
  | mapped page frame => "mapped page " ++ toString page ++ " to frame " ++ toString frame
  | released frames => "released " ++ toString frames ++ " frames"
  | installed page frame dirty =>
      "tlb: " ++ toString page ++ " -> " ++ toString frame ++ " (dirty: " ++ toString dirty ++ ")"
  | created => "created address space"
  | copied regions pages =>
      "copied address space (" ++ toString regions ++ " regions, " ++ toString pages ++ " pages)"
  | destroying pages => "destroying address space (" ++ toString pages ++ " pages)"
  | defined base finish permissions =>
      "defined region " ++ toString base ++ ".." ++ hex finish ++ " " ++ toString permissions
  | loadStarted => "load phase started"
  | loadFinished => "load phase finished"
  | faulted report => toString report

instance : ToString Record where
  toString record := toString record.severity ++ " " ++ record.text

end Record

abbrev PoolId := Nat

/-- One thing that an observer sees. An allocation and a masking are seen when they are done, all
other calls when they begin. -/
inductive Event
  | allocated (pool : PoolId) (frame : Option PhysicalAddress)
  | releasing (pool : PoolId) (frame : PhysicalAddress)
  | zeroing (pool : PoolId) (frame : PhysicalAddress)
  | masked (machine : Nat) (prior : InterruptLevel)
  | restoring (machine : Nat) (level : InterruptLevel)
  | inserting (machine : Nat) (mapping : Mapping)
  | invalidating (machine : Nat)
  | logged (record : Record)
  deriving DecidableEq, Repr

namespace Event

def isRecord : Event → Bool
  | logged _ => true
  | _ => false

instance : ToString Event where
  toString
    | allocated pool frame =>
        "alloc f" ++ toString pool ++ " " ++ (frame.map toString).getD "none"
    | releasing pool frame => "release f" ++ toString pool ++ " " ++ toString frame
    | zeroing pool frame => "zero f" ++ toString pool ++ " " ++ toString frame
    | masked machine prior => "mask m" ++ toString machine ++ " " ++ toString prior
    | restoring machine level => "restore m" ++ toString machine ++ " " ++ toString level
    | inserting machine mapping =>
        "insert m" ++ toString machine ++ " " ++ toString mapping.page ++ " " ++
          hex mapping.entry.raw
    | invalidating machine => "invalidate m" ++ toString machine
    | logged record => toString record

end Event

end DemandPaging
