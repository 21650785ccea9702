import DemandPaging.Entry
import DemandPaging.FramePool

/-!
Sparse page tables of two levels. A directory says for each of its places which block of an arena
serves it, if any, and a block holds the entries of 512 pages. A table owns the frames of its
entries and gives them back to the pool that they came from.
-/

namespace DemandPaging

abbrev Block := Vector (Option PageEntry) Layout.secondLevelEntries

namespace Block

def empty : Block :=
  Vector.replicate Layout.secondLevelEntries none

def entries (block : Block) : List PageEntry :=
  block.toList.filterMap id

def put (block : Block) (second : SecondIndex) (entry : PageEntry) : Block :=
  block.set second.val (some entry) second.isLt

def dropFirst (block : Block) : Block :=
  match block.toList.findIdx? Option.isSome with
  | some second => block.setIfInBounds second none
  | none => block

end Block

structure PageTable where
  pool : PoolId
  /-- The position in `blocks` of the block that serves a place, if there is one. -/
  directory : Vector (Option UInt16) Layout.firstLevelEntries
  /-- Blocks in the order in which they were made. -/
  blocks : Array Block
  deriving DecidableEq

namespace PageTable

def empty (pool : PoolId) : PageTable :=
  ⟨pool, Vector.replicate Layout.firstLevelEntries none, #[]⟩

def position? (table : PageTable) (first : FirstIndex) : Option UInt16 :=
  table.directory[first]

def block? (table : PageTable) (first : FirstIndex) : Option Block :=
  (table.position? first).bind fun index => table.blocks[index.toNat]?

/-- The entry of a page. Page numbers that differ in high bits alone have the same entry. -/
def find? (table : PageTable) (page : PageNumber) : Option PageEntry :=
  (table.block? page.firstIndex).bind fun block => block[page.secondIndex]

def contains (table : PageTable) (page : PageNumber) : Bool :=
  (table.find? page).isSome

def pagesOf (first : FirstIndex) (block : Block) : List (PageNumber × PageEntry) :=
  (List.finRange Layout.secondLevelEntries).filterMap fun second =>
    block[second].map fun entry => (.ofPlaces first second, entry)

def pagesAt (table : PageTable) (first : FirstIndex) : List (PageNumber × PageEntry) :=
  (table.block? first).elim [] (pagesOf first)

/-- The mapped pages with their entries, in the order of their numbers. -/
def mappedPages (table : PageTable) : List (PageNumber × PageEntry) :=
  (List.finRange Layout.firstLevelEntries).flatMap table.pagesAt

def mappedCount (table : PageTable) : Nat :=
  table.blocks.toList.foldr (fun block count => block.entries.length + count) 0

/-- The frames of all entries, block after block in the order in which the blocks were made. -/
def frames (table : PageTable) : List PhysicalAddress :=
  table.blocks.toList.flatMap fun block => block.entries.map PageEntry.frame

def addBlock (table : PageTable) (first : FirstIndex) : PageTable :=
  { table with
    directory := table.directory.set first.val (some (.ofNat table.blocks.size)) first.isLt
    blocks := table.blocks.push Block.empty }

def withBlock (table : PageTable) (first : FirstIndex) : PageTable :=
  if (table.position? first).isSome then table else table.addBlock first

def insert (table : PageTable) (page : PageNumber) (entry : PageEntry) :
    Except Violation PageTable :=
  match table.position? page.firstIndex with
  | some index =>
      if index.toNat < table.blocks.size then
        .ok { table with blocks := table.blocks.modify index.toNat (·.put page.secondIndex entry) }
      else .error .missingBlock
  | none => .error .missingBlock

def ensureBlock (first : UInt64) : Action PageTable Unit := do
  if h : first.toNat < Layout.firstLevelEntries then
    let place : FirstIndex := ⟨first.toNat, h⟩
    if ((← Action.current).position? place).isSome then
      Action.refuse .alreadyExists
    Action.update (·.addBlock place)
  else
    Action.violate .firstIndexOutOfRange

/-- Maps a page that is not mapped to a new frame with every byte zero. The block of the page is
made first, and stays if there is no frame left. -/
def createEntry (page : PageNumber) (dirty : Bool) : Action (PageTable × FramePool) PageEntry := do
  Action.first (Action.update (·.withBlock page.firstIndex))
  let (table, _) ← Action.current
  if table.contains page then
    Action.refuse .alreadyExists
  let some frame ← Action.second (FramePool.allocateFrame table.pool)
    | Action.refuse .outOfMemory
  Action.second (FramePool.zeroFrame table.pool frame)
  let entry ← PageEntry.new frame ((EntryFlags.empty.withValid true).withDirty dirty)
  Action.first (Action.attempt (·.insert page entry))
  Action.log (.mapped page frame)
  return entry

def dropFirst (table : PageTable) : PageTable :=
  match table.blocks.toList.findIdx? fun block => block.any Option.isSome with
  | some position => { table with blocks := table.blocks.modify position Block.dropFirst }
  | none => table

/-- Gives back the frames of entries, which are all that a table has or the last ones of them. Each
entry is taken out of the table before its frame is given back. -/
def releaseEntries (id : PoolId) : List PhysicalAddress → Action (PageTable × FramePool) Unit
  | [] => pure ()
  | frame :: rest => do
      Action.first (Action.update dropFirst)
      Action.second (FramePool.releaseFrame id frame)
      releaseEntries id rest

def destroy : Action (PageTable × FramePool) Unit := do
  let (table, _) ← Action.current
  let frames := table.frames
  releaseEntries table.pool frames
  Action.first (Action.update fun _ => empty table.pool)
  if !frames.isEmpty then
    Action.log (.released frames.length)

def copyEntry (page : PageNumber) (entry : PageEntry) : Action (PageTable × FramePool) Unit := do
  Action.first (Action.update (·.withBlock page.firstIndex))
  let (table, _) ← Action.current
  let some frame ← Action.second (FramePool.allocateFrame table.pool)
    | Action.refuse .outOfMemory
  Action.second (FramePool.copyFrame entry.frame frame)
  let copied ← PageEntry.new frame (entry.flags.withValid true)
  Action.first (Action.attempt (·.insert page copied))

def copyEntries : List (PageNumber × PageEntry) → Action (PageTable × FramePool) Unit
  | [] => pure ()
  | (page, entry) :: rest => do
      copyEntry page entry
      copyEntries rest

/-- A table that maps the same pages to new frames with the same bytes. If the frames run out, those
taken for the copy are given back. -/
def copy (table : PageTable) : Action FramePool PageTable :=
  Action.build (empty table.pool) (copyEntries table.mappedPages) destroy

end PageTable

end DemandPaging
