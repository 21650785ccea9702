import DemandPaging.PageTable
import DemandPaging.Processor
import DemandPaging.Region

/-!
User address spaces: regions that say what may be accessed, and a page table that holds the pages
accessed so far.
-/

namespace DemandPaging

structure AddressSpace where
  regions : List Region
  table : PageTable
  stackBase : VirtualAddress
  loading : Bool
  deriving DecidableEq

namespace AddressSpace

variable {σ : Type} {n : Nat}

def create (pool : PoolId) : Action σ AddressSpace := do
  Action.log .created
  let stackBase ← VirtualAddress.ofWord Layout.userStackTop
  return ⟨[], .empty pool, stackBase, false⟩

/-- A space with the same regions, and with the same bytes in frames of its own. -/
def copy (space : AddressSpace) : Action FramePool AddressSpace := do
  let table ← space.table.copy
  Action.log (.copied space.regions.length table.mappedCount)
  return { space with table }

def onTable {α : Type} (x : Action (PageTable × FramePool) α) :
    Action (AddressSpace × FramePool) α :=
  x.on (fun s => (s.1.table, s.2)) fun t s => ({ s.1 with table := t.1 }, t.2)

def discard : Action (AddressSpace × FramePool) Unit :=
  onTable PageTable.destroy

def destroy : Action (AddressSpace × FramePool) Unit := do
  let (space, _) ← Action.current
  Action.log (.destroying space.table.mappedCount)
  discard

def defineRegion (address length : UInt64) (permissions : Permissions) :
    Action AddressSpace Unit := do
  let region ← Region.declare address length permissions
  Action.update fun space => { space with regions := space.regions ++ [region] }
  let finish ← Checked.add region.base.word region.size
  Action.log (.defined region.base finish permissions)

def defineStack : Action AddressSpace VirtualAddress := do
  let stackBase := (← Action.current).stackBase
  let bottom ← Checked.sub stackBase.word Layout.userStackSize
  defineRegion bottom Layout.userStackSize .all
  return stackBase

/-- Starts a load phase, in which every region declared so far may be read and written. -/
def beginLoad : Action AddressSpace Unit := do
  if (← Action.current).loading then
    Action.refuse .invalidArgument
  Action.update fun space =>
    { space with regions := space.regions.map Region.widen, loading := true }
  Action.log .loadStarted

/-- Ends a load phase. Mappings made in it may allow too much, so the cache is emptied. -/
def endLoad (processor : Processor n) : Action (AddressSpace × Machines n) Unit := do
  let (space, _) ← Action.current
  if !space.loading then
    Action.refuse .invalidArgument
  Action.first (Action.update fun space =>
    { space with regions := space.regions.map Region.restore, loading := false })
  Action.second processor.invalidate
  Action.log .loadFinished

/-- The physical address behind an address, if its page is mapped. A frame is page-aligned, so
adding an offset below the size of a page cannot overflow. -/
def physical? (space : AddressSpace) (address : VirtualAddress) : Option PhysicalAddress :=
  (space.table.find? address.pageNumber).map fun entry => ⟨entry.frame.word + address.pageOffset⟩

/-- The mapping that serves an access to a page, if the deciding region allows the access. A page
that is not mapped yet is mapped first. A page is dirty in the mapping only if it may be written now
and its entry says that it might be written when it was mapped. -/
def resolve (access : Access) (page : PageNumber) : Action (AddressSpace × FramePool) Mapping := do
  let (space, _) ← Action.current
  if space.regions.isEmpty then
    (FaultReport.noRegions (← page.start)).deny
  let some region := Region.deciding? space.regions page
    | (FaultReport.outsideRegions (← page.start)).deny
  let permissions := region.permissions
  if !access.allowedBy permissions then
    (FaultReport.notPermitted (← page.start) access permissions).deny
  let entry ←
    match space.table.find? page with
    | some entry => pure entry
    | none => onTable (PageTable.createEntry page permissions.writable)
  let start ← page.start
  let entry ← entry.withDirty (entry.isDirty && permissions.writable)
  Mapping.new start entry

end AddressSpace

end DemandPaging
