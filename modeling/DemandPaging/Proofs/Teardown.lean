import DemandPaging.Proofs.Conservation

namespace DemandPaging

def givenBack (events : List Event) : List (PoolId × PhysicalAddress) :=
  events.filterMap fun
    | .releasing pool frame => some (pool, frame)
    | _ => none

namespace PageTable

def mappedFrames (table : PageTable) : List PhysicalAddress :=
  table.mappedPages.map fun item => item.2.frame

/-- What becomes of a pool when a table gives its frames up, and what is observed. The frames of the
table are given back once each and no others are, they are not in use any more, and no byte is
written. -/
structure GivesUp (table : PageTable) (pool next : FramePool) (events : List Event) : Prop where
  memory : next.memory = pool.memory
  limit : next.limit = pool.limit
  allocations : next.allocations = pool.allocations
  releases : next.releases = pool.releases + table.mappedCount
  inUse : pool.framesInUse.Perm (table.mappedFrames ++ next.framesInUse)
  nodup : pool.framesInUse.Nodup
  givenBack : (givenBack events).Perm (table.mappedFrames.map fun frame => (table.pool, frame))
  once : (DemandPaging.givenBack events).Nodup

variable {table : PageTable} {pool : FramePool} {owned : List PhysicalAddress}

theorem givenBack_farewell (table : PageTable) :
    DemandPaging.givenBack table.farewell = table.frames.map fun frame => (table.pool, frame) := by
  have hreleases : DemandPaging.givenBack (table.frames.map (.releasing table.pool)) =
      table.frames.map fun frame => (table.pool, frame) := by
    rw [DemandPaging.givenBack, List.filterMap_map]
    change table.frames.filterMap (fun frame => some (table.pool, frame)) = _
    exact congrFun List.filterMap_eq_map' table.frames
  rw [DemandPaging.givenBack] at hreleases ⊢
  rw [farewell, List.filterMap_append, hreleases]
  split <;> exact List.append_nil _

theorem Backed.givesUp (h : Backed owned (table, pool)) :
    table.GivesUp pool (pool.takeBackAll table.frames) table.farewell := by
  have hmapped : table.mappedFrames.Perm table.frames := frames_perm h.wellFormed
  have howned : pool.HandedOut (table.frames ++ owned) := h.handedOut
  constructor
  case memory => exact FramePool.memory_takeBackAll pool table.frames
  case limit => exact FramePool.limit_takeBackAll pool table.frames
  case allocations => exact FramePool.allocations_takeBackAll pool table.frames
  case releases =>
    rw [FramePool.releases_takeBackAll, table.mappedCount_eq_length_frames]
  case inUse =>
    exact howned.framesInUse_perm.trans
      (hmapped.symm.append howned.takeBackAll.framesInUse_perm.symm)
  case nodup => exact howned.framesInUse_perm.nodup_iff.mpr howned.nodup
  case givenBack =>
    rw [givenBack_farewell]
    exact (hmapped.map _).symm
  case once =>
    rw [givenBack_farewell]
    exact (List.nodup_append.mp howned.nodup).1.map fun _ _ heq => congrArg Prod.snd heq

theorem destroy_empty (id : PoolId) (pool : FramePool) :
    destroy (empty id, pool) = ⟨.ok (), (empty id, pool), []⟩ := by
  have hpool : (empty id).pool = id := rfl
  simp [destroy, releaseEntries, Outcome.after, hpool]

theorem frames_iterate_dropFirst (count : Nat) (table : PageTable) :
    (dropFirst^[count] table).frames = table.frames.drop count := by
  induction count generalizing table with
  | zero => rfl
  | succ count ih =>
      rw [Function.iterate_succ_apply, ih, frames_dropFirst, List.drop_tail]

theorem frames_of_refused {reason : Stop} {table : PageTable} {pool : FramePool}
    (h : (destroy (table, pool)).result = .error reason) :
    (destroy (table, pool)).state.1.frames =
      table.frames.drop (destroy (table, pool)).events.length := by
  rcases hrelease : FramePool.releaseFrames table.pool table.frames pool with
    ⟨other | _, next, events⟩
  · rw [destroy_of_refused hrelease]
    exact frames_iterate_dropFirst events.length table
  · rw [destroy_of_released hrelease] at h
    cases h

theorem ensureBlock_empty (id : PoolId) {first : UInt64}
    (hfirst : first.toNat < Layout.firstLevelEntries) :
    (ensureBlock first (empty id)).result = .ok () := by
  rw [ensureBlock, dif_pos hfirst]
  simp [Outcome.after]

end PageTable

namespace AddressSpace

variable {space : AddressSpace} {pool : FramePool} {owned : List PhysicalAddress}
  (h : PageTable.Backed owned (space.table, pool))

include h

theorem discard_eq :
    discard (space, pool) =
      ⟨.ok (), ({ space with table := .empty space.table.pool },
          pool.takeBackAll space.table.frames), space.table.farewell⟩ := by
  rw [discard, onTable, Action.run_on, PageTable.destroy_eq h.handedOut]

theorem destroy_eq :
    destroy (space, pool) =
      ⟨.ok (), ({ space with table := .empty space.table.pool },
          pool.takeBackAll space.table.frames),
        .logged (.destroying space.table.mappedCount) :: space.table.farewell⟩ := by
  simp [destroy, discard_eq h, Outcome.after]

end AddressSpace

end DemandPaging
