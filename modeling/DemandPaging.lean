import DemandPaging.Access
import DemandPaging.Action
import DemandPaging.Address.Physical
import DemandPaging.Address.Virtual
import DemandPaging.AddressSpace
import DemandPaging.Checked
import DemandPaging.Entry
import DemandPaging.Event
import DemandPaging.Failure
import DemandPaging.Fault
import DemandPaging.FramePool
import DemandPaging.Hexadecimal
import DemandPaging.Layout
import DemandPaging.Machine
import DemandPaging.Mapping
import DemandPaging.Memory
import DemandPaging.PageNumber
import DemandPaging.PageRange
import DemandPaging.PageTable
import DemandPaging.Permissions
import DemandPaging.Processor
import DemandPaging.Proofs.AddressSpace
import DemandPaging.Proofs.Agreement
import DemandPaging.Proofs.Cache
import DemandPaging.Proofs.CacheJournal
import DemandPaging.Proofs.CacheWrites
import DemandPaging.Proofs.Coherence
import DemandPaging.Proofs.Conservation
import DemandPaging.Proofs.Declarations
import DemandPaging.Proofs.Entry
import DemandPaging.Proofs.Fault
import DemandPaging.Proofs.FramePool
import DemandPaging.Proofs.Generator
import DemandPaging.Proofs.Geometry
import DemandPaging.Proofs.Guards
import DemandPaging.Proofs.InRange
import DemandPaging.Proofs.Indices
import DemandPaging.Proofs.Interrupts
import DemandPaging.Proofs.Ledger
import DemandPaging.Proofs.Machine
import DemandPaging.Proofs.MachineCalls
import DemandPaging.Proofs.Memory
import DemandPaging.Proofs.Overlap
import DemandPaging.Proofs.Packing
import DemandPaging.Proofs.PageTable.Blocks
import DemandPaging.Proofs.PageTable.Copy
import DemandPaging.Proofs.PageTable.Enumeration
import DemandPaging.Proofs.PageTable.Flat
import DemandPaging.Proofs.PageTable.Operations
import DemandPaging.Proofs.PageTable.Representation
import DemandPaging.Proofs.PoolJournal
import DemandPaging.Proofs.PoolReuse
import DemandPaging.Proofs.Region
import DemandPaging.Proofs.Runs
import DemandPaging.Proofs.Secrecy
import DemandPaging.Proofs.Session.Answers
import DemandPaging.Proofs.Session.Balance
import DemandPaging.Proofs.Session.CacheWrites
import DemandPaging.Proofs.Session.Chronicle
import DemandPaging.Proofs.Session.Coherence
import DemandPaging.Proofs.Session.Deeds
import DemandPaging.Proofs.Session.Faults
import DemandPaging.Proofs.Session.FirstFaults
import DemandPaging.Proofs.Session.Fork
import DemandPaging.Proofs.Session.Isolation
import DemandPaging.Proofs.Session.Listing
import DemandPaging.Proofs.Session.LoadPhase
import DemandPaging.Proofs.Session.Locality
import DemandPaging.Proofs.Session.Mirrors
import DemandPaging.Proofs.Session.NullPage
import DemandPaging.Proofs.Session.Overlap
import DemandPaging.Proofs.Session.Placement
import DemandPaging.Proofs.Session.Population
import DemandPaging.Proofs.Session.Reachable
import DemandPaging.Proofs.Session.Redeclared
import DemandPaging.Proofs.Session.Rejection
import DemandPaging.Proofs.Session.Reordering
import DemandPaging.Proofs.Session.Safety
import DemandPaging.Proofs.Session.Secrecy
import DemandPaging.Proofs.Session.Service
import DemandPaging.Proofs.Session.Steps
import DemandPaging.Proofs.Session.Teardown
import DemandPaging.Proofs.Session.Twins
import DemandPaging.Proofs.Session.Watch
import DemandPaging.Proofs.Stepping
import DemandPaging.Proofs.Teardown
import DemandPaging.Proofs.Touch
import DemandPaging.Proofs.Translation
import DemandPaging.Proofs.Twins
import DemandPaging.Region
import DemandPaging.Session.Request
import DemandPaging.Session.Run
import DemandPaging.Session.Slots
import DemandPaging.Session.State
import DemandPaging.Shown
