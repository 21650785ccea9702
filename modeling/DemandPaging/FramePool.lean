import DemandPaging.Memory

/-!
Frame pools. A pool hands out the frames of its memory: the one released last if any is free, and
else the lowest that was never handed out. It refuses to take back a frame that is not handed out.
-/

namespace DemandPaging

structure FramePool where
  memory : Memory
  /-- Released frames, the last released first. -/
  free : List PhysicalAddress
  /-- The index of the lowest frame that was never handed out. -/
  fresh : Nat
  /-- Which frames are handed out, by index. Its size is the limit of the pool. -/
  inUse : Array Bool
  allocations : Nat
  releases : Nat

namespace FramePool

/-- A pool of at most `limit` frames. Its memory has at least one frame. -/
def new (limit : UInt64) : Except Violation FramePool := do
  let size ← Checked.mul (max limit 1) Layout.pageBytes
  let memory ← Memory.new size
  return ⟨memory, [], 0, .replicate limit.toNat false, 0, 0⟩

def limit (pool : FramePool) : Nat :=
  pool.inUse.size

def outstanding (pool : FramePool) : Nat :=
  pool.allocations - pool.releases

def isInUse (pool : FramePool) (index : Nat) : Bool :=
  pool.inUse[index]?.getD false

def allocate (pool : FramePool) : Option PhysicalAddress × FramePool :=
  match pool.free with
  | frame :: rest =>
      (some frame,
        { pool with
          free := rest
          inUse := pool.inUse.setIfInBounds frame.frameIndex true
          allocations := pool.allocations + 1 })
  | [] =>
      if pool.fresh < pool.limit then
        (some (.ofFrameIndex pool.fresh),
          { pool with
            fresh := pool.fresh + 1
            inUse := pool.inUse.setIfInBounds pool.fresh true
            allocations := pool.allocations + 1 })
      else (none, pool)

def release (pool : FramePool) (frame : PhysicalAddress) : Except Violation FramePool :=
  if frame.isPageAligned && pool.isInUse frame.frameIndex then
    .ok
      { pool with
        free := frame :: pool.free
        inUse := pool.inUse.setIfInBounds frame.frameIndex false
        releases := pool.releases + 1 }
  else .error (.notAllocated frame.word)

def onMemory {α : Type} (x : Action Memory α) : Action FramePool α :=
  x.on FramePool.memory fun memory pool => { pool with memory }

def allocateFrame (id : PoolId) : Action FramePool (Option PhysicalAddress) := do
  let (frame, pool) := (← Action.current).allocate
  Action.update fun _ => pool
  Action.emit (.allocated id frame)
  return frame

def releaseFrame (id : PoolId) (frame : PhysicalAddress) : Action FramePool Unit := do
  Action.emit (.releasing id frame)
  Action.attempt (·.release frame)

def releaseFrames (id : PoolId) : List PhysicalAddress → Action FramePool Unit
  | [] => pure ()
  | frame :: rest => do
      releaseFrame id frame
      releaseFrames id rest

def zeroFrame (id : PoolId) (frame : PhysicalAddress) : Action FramePool Unit := do
  Action.emit (.zeroing id frame)
  onMemory (Action.attempt (·.zeroFrame frame))

def copyFrame (source target : PhysicalAddress) : Action FramePool Unit :=
  onMemory (Action.attempt (·.copyFrame source target))

end FramePool

end DemandPaging
