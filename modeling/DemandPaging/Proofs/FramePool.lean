import Mathlib.Data.List.Nodup
import Mathlib.Data.List.Perm.Basic
import DemandPaging.FramePool
import DemandPaging.Proofs.Memory

/-!
The frames of a pool that are handed out, as a list that names each of them once. An allocation puts
a frame of memory on that list that was not on it, a release takes one off, and nothing else changes
it.
-/

namespace DemandPaging

namespace FramePool

/-- The frames that a pool has marked as in use, in the order of their addresses. -/
def framesInUse (pool : FramePool) : List PhysicalAddress :=
  ((List.range pool.limit).filter pool.isInUse).map .ofFrameIndex

/-- A list of the frames that a pool has handed out. Together with the free frames these are all the
frames below the first fresh one, each of them once. -/
structure HandedOut (pool : FramePool) (owned : List PhysicalAddress) : Prop where
  frames : (pool.free ++ owned).Perm ((List.range pool.fresh).map .ofFrameIndex)
  inUse_iff : ∀ index < pool.limit, pool.isInUse index = true ↔ .ofFrameIndex index ∈ owned
  allocations : pool.allocations = pool.releases + owned.length
  fresh_le : pool.fresh ≤ pool.limit
  limit_le : pool.limit ≤ pool.memory.pages.size
  size_le : pool.memory.size ≤ Memory.maxSize.toNat

namespace HandedOut

variable {pool : FramePool} {owned : List PhysicalAddress}

theorem perm (h : pool.HandedOut owned) {other : List PhysicalAddress} (hperm : owned.Perm other) :
    pool.HandedOut other where
  frames := (hperm.symm.append_left pool.free).trans h.frames
  inUse_iff index hindex := (h.inUse_iff index hindex).trans hperm.mem_iff
  allocations := hperm.length_eq ▸ h.allocations
  fresh_le := h.fresh_le
  limit_le := h.limit_le
  size_le := h.size_le

theorem withMemory (h : pool.HandedOut owned) {memory : Memory}
    (hsize : memory.pages.size = pool.memory.pages.size) :
    HandedOut { pool with memory } owned where
  frames := h.frames
  inUse_iff := h.inUse_iff
  allocations := h.allocations
  fresh_le := h.fresh_le
  limit_le := hsize ▸ h.limit_le
  size_le := by
    have := h.size_le
    rwa [Memory.size, ← hsize] at this

theorem address_lt (h : pool.HandedOut owned) {index : Nat} (hindex : index < pool.limit) :
    index * Layout.pageSize < UInt64.size := by
  calc
    index * Layout.pageSize ≤ pool.memory.pages.size * Layout.pageSize :=
      Nat.mul_le_mul_right _ (Nat.le_of_lt (Nat.lt_of_lt_of_le hindex h.limit_le))
    _ ≤ Memory.maxSize.toNat := h.size_le
    _ < UInt64.size := by decide

theorem ofFrameIndex_inj (h : pool.HandedOut owned) {i j : Nat} (hi : i < pool.limit)
    (hj : j < pool.limit) (heq : PhysicalAddress.ofFrameIndex i = .ofFrameIndex j) : i = j := by
  rw [← PhysicalAddress.frameIndex_ofFrameIndex (h.address_lt hi), heq,
    PhysicalAddress.frameIndex_ofFrameIndex (h.address_lt hj)]

theorem nodup_frames (h : pool.HandedOut owned) : (pool.free ++ owned).Nodup := by
  rw [h.frames.nodup_iff]
  apply List.Nodup.map_on _ List.nodup_range
  intro i hi j hj heq
  rw [List.mem_range] at hi hj
  exact h.ofFrameIndex_inj (Nat.lt_of_lt_of_le hi h.fresh_le) (Nat.lt_of_lt_of_le hj h.fresh_le) heq

theorem nodup (h : pool.HandedOut owned) : owned.Nodup :=
  h.nodup_frames.of_append_right

theorem index_of_mem (h : pool.HandedOut owned) {frame : PhysicalAddress}
    (hmem : frame ∈ pool.free ++ owned) :
    frame.frameIndex < pool.fresh ∧ frame = .ofFrameIndex frame.frameIndex := by
  obtain ⟨index, hindex, rfl⟩ := List.mem_map.mp (h.frames.mem_iff.mp hmem)
  rw [List.mem_range] at hindex
  rw [PhysicalAddress.frameIndex_ofFrameIndex (h.address_lt (Nat.lt_of_lt_of_le hindex h.fresh_le))]
  exact ⟨hindex, rfl⟩

theorem isPageAligned (h : pool.HandedOut owned) {frame : PhysicalAddress}
    (hmem : frame ∈ pool.free ++ owned) : frame.isPageAligned = true := by
  obtain ⟨hindex, heq⟩ := h.index_of_mem hmem
  rw [heq]
  exact PhysicalAddress.isPageAligned_ofFrameIndex
    (h.address_lt (Nat.lt_of_lt_of_le hindex h.fresh_le))

theorem holds (h : pool.HandedOut owned) {frame : PhysicalAddress}
    (hmem : frame ∈ pool.free ++ owned) :
    pool.memory.Holds frame :=
  Nat.lt_of_lt_of_le (h.index_of_mem hmem).1 (Nat.le_trans h.fresh_le h.limit_le)

theorem isPageAligned_first {frame : PhysicalAddress} (h : pool.HandedOut (frame :: owned)) :
    frame.isPageAligned = true :=
  h.isPageAligned (List.mem_append_right _ List.mem_cons_self)

theorem holds_first {frame : PhysicalAddress} (h : pool.HandedOut (frame :: owned)) :
    pool.memory.Holds frame :=
  h.holds (List.mem_append_right _ List.mem_cons_self)

theorem length_free (h : pool.HandedOut owned) : pool.free.length + owned.length = pool.fresh := by
  simpa using h.frames.length_eq

theorem length_le (h : pool.HandedOut owned) : owned.length ≤ pool.limit := by
  have := h.length_free
  have := h.fresh_le
  omega

theorem outstanding_eq (h : pool.HandedOut owned) : pool.outstanding = owned.length := by
  rw [outstanding, h.allocations]
  exact Nat.add_sub_cancel_left _ _

theorem not_mem_free (h : pool.HandedOut owned) {frame : PhysicalAddress} (hmem : frame ∈ owned) :
    frame ∉ pool.free :=
  fun hfree => List.disjoint_of_nodup_append h.nodup_frames hfree hmem

theorem framesInUse_perm (h : pool.HandedOut owned) : pool.framesInUse.Perm owned := by
  have hnodup : pool.framesInUse.Nodup := by
    apply List.Nodup.map_on _ (List.nodup_range.filter _)
    intro i hi j hj heq
    exact h.ofFrameIndex_inj (List.mem_range.mp (List.mem_of_mem_filter hi))
      (List.mem_range.mp (List.mem_of_mem_filter hj)) heq
  rw [List.perm_ext_iff_of_nodup hnodup h.nodup]
  intro frame
  simp only [framesInUse, List.mem_map, List.mem_filter, List.mem_range]
  constructor
  · rintro ⟨index, ⟨hindex, huse⟩, rfl⟩
    exact (h.inUse_iff index hindex).mp huse
  · intro hmem
    obtain ⟨hindex, heq⟩ := h.index_of_mem (List.mem_append_right pool.free hmem)
    have hlimit := Nat.lt_of_lt_of_le hindex h.fresh_le
    exact ⟨frame.frameIndex, ⟨hlimit, (h.inUse_iff _ hlimit).mpr (heq ▸ hmem)⟩, heq.symm⟩

theorem framesInUse_eq {next : FramePool} (hnext : next.HandedOut owned) (h : pool.HandedOut owned)
    (hlimit : next.limit = pool.limit) : next.framesInUse = pool.framesInUse := by
  rw [framesInUse, framesInUse, hlimit]
  apply congrArg (List.map PhysicalAddress.ofFrameIndex)
  apply List.filter_congr
  intro index hindex
  rw [List.mem_range] at hindex
  rw [Bool.eq_iff_iff, h.inUse_iff index hindex, hnext.inUse_iff index (hlimit ▸ hindex)]

theorem sameBytes_of_mem {next : FramePool} {others : List PhysicalAddress}
    (h : pool.HandedOut owned) (hnext : next.HandedOut others) {frame copied : PhysicalAddress}
    (hframe : frame ∈ owned) (hcopied : copied ∈ others)
    (hcontents : next.memory.contents copied = pool.memory.contents frame) :
    pool.memory.SameBytes frame next.memory copied := by
  have hbefore := List.mem_append_right pool.free hframe
  have hafter := List.mem_append_right next.free hcopied
  exact Memory.sameBytes_of_contents (h.holds hbefore) (h.isPageAligned hbefore)
    (hnext.holds hafter) (hnext.isPageAligned hafter) hcontents

end HandedOut

theorem handedOut_new {limit : UInt64} {pool : FramePool} (h : new limit = .ok pool) :
    pool.HandedOut [] ∧ pool.limit = limit.toNat := by
  simp only [new, bind, Except.bind] at h
  split at h
  · contradiction
  · rename_i size hsize
    split at h
    · contradiction
    · rename_i memory hmemory
      obtain rfl := Except.ok.inj h
      obtain ⟨hbytes, hbound⟩ := Memory.size_of_new hmemory
      rw [Checked.mul_eq_ok_iff] at hsize
      have hpages : memory.pages.size = (max limit 1).toNat :=
        Nat.eq_of_mul_eq_mul_right (by decide) (hbytes.trans hsize.symm)
      have hmax : limit.toNat ≤ (max limit 1).toNat := by
        change limit.toNat ≤ (if limit ≤ 1 then 1 else limit).toNat
        split
        · exact UInt64.le_iff_toNat_le.mp ‹_›
        · exact Nat.le_refl _
      have hlimit : (Array.replicate limit.toNat false).size = limit.toNat := Array.size_replicate
      refine ⟨⟨List.Perm.refl _, ?_, rfl, Nat.zero_le _, ?_, hbytes ▸ hbound⟩, hlimit⟩
      · intro index hindex
        change index < (Array.replicate limit.toNat false).size at hindex
        rw [hlimit] at hindex
        simp [isInUse, hindex]
      · change (Array.replicate limit.toNat false).size ≤ memory.pages.size
        rw [hlimit, hpages]
        exact hmax

namespace HandedOut

variable {pool : FramePool} {owned : List PhysicalAddress}

theorem allocate_of_full (h : pool.HandedOut owned) (hfull : owned.length = pool.limit) :
    pool.allocate = (none, pool) := by
  have hlength := h.length_free
  have hfresh := h.fresh_le
  have hfree : pool.free = [] := List.eq_nil_of_length_eq_zero (by omega)
  have hlimit : ¬ pool.fresh < pool.limit := by omega
  simp only [allocate, hfree, hlimit, if_false]

end HandedOut

structure Allocates (pool next : FramePool) : Prop where
  memory : next.memory = pool.memory
  limit : next.limit = pool.limit
  allocations : next.allocations = pool.allocations + 1
  releases : next.releases = pool.releases

private theorem isInUse_setIfInBounds (pool : FramePool) {place : Nat} (hplace : place < pool.limit)
    (mark : Bool) (index : Nat) :
    (pool.inUse.setIfInBounds place mark)[index]?.getD false =
      if index = place then mark else pool.isInUse index := by
  have hsize : place < pool.inUse.size := hplace
  rw [Array.getElem?_setIfInBounds]
  by_cases heq : index = place
  · rw [if_pos heq.symm, if_pos heq, if_pos hsize, Option.getD_some]
  · rw [if_neg (Ne.symm heq), if_neg heq, isInUse]

namespace HandedOut

variable {pool : FramePool} {owned : List PhysicalAddress}

private theorem inUse_iff_of_cons (h : pool.HandedOut owned) {place index : Nat}
    (hplace : place < pool.limit) (hindex : index < pool.limit) :
    (pool.inUse.setIfInBounds place true)[index]?.getD false = true ↔
      .ofFrameIndex index ∈ PhysicalAddress.ofFrameIndex place :: owned := by
  rw [isInUse_setIfInBounds pool hplace, List.mem_cons]
  by_cases heq : index = place
  · simp [heq]
  · have hne : PhysicalAddress.ofFrameIndex index ≠ .ofFrameIndex place :=
      fun hframe => heq (h.ofFrameIndex_inj hindex hplace hframe)
    rw [if_neg heq, h.inUse_iff index hindex]
    simp [hne]

theorem allocate_of_free (h : pool.HandedOut owned) {frame : PhysicalAddress}
    {rest : List PhysicalAddress} (hfree : pool.free = frame :: rest) :
    ∃ next, pool.allocate = (some frame, next) ∧ next.HandedOut (frame :: owned) ∧
      pool.Allocates next := by
  have hmem : frame ∈ pool.free ++ owned := by simp [hfree]
  obtain ⟨hindex, hframe⟩ := h.index_of_mem hmem
  have hplace := Nat.lt_of_lt_of_le hindex h.fresh_le
  have hlimit : (pool.inUse.setIfInBounds frame.frameIndex true).size = pool.limit :=
    Array.size_setIfInBounds
  rw [allocate, hfree]
  refine ⟨_, rfl, ?_, ⟨rfl, hlimit, rfl, rfl⟩⟩
  refine ⟨?_, ?_, ?_, Nat.le_trans h.fresh_le (Nat.le_of_eq hlimit.symm),
    Nat.le_trans (Nat.le_of_eq hlimit) h.limit_le, h.size_le⟩
  · have hframes := h.frames
    rw [hfree] at hframes
    exact List.perm_middle.trans hframes
  · intro index hindex
    have hmarked := inUse_iff_of_cons h hplace (Nat.lt_of_lt_of_eq hindex hlimit)
    rwa [← hframe] at hmarked
  · change pool.allocations + 1 = pool.releases + (owned.length + 1)
    rw [h.allocations, Nat.add_assoc]

theorem allocate_of_fresh (h : pool.HandedOut owned) (hfree : pool.free = [])
    (hplace : pool.fresh < pool.limit) :
    ∃ next, pool.allocate = (some (.ofFrameIndex pool.fresh), next) ∧
      next.HandedOut (.ofFrameIndex pool.fresh :: owned) ∧ pool.Allocates next := by
  have hlimit : (pool.inUse.setIfInBounds pool.fresh true).size = pool.limit :=
    Array.size_setIfInBounds
  simp only [allocate, hfree, if_pos hplace]
  refine ⟨_, rfl, ?_, ⟨rfl, hlimit, rfl, rfl⟩⟩
  refine ⟨?_, ?_, ?_, Nat.lt_of_lt_of_eq hplace hlimit.symm,
    Nat.le_trans (Nat.le_of_eq hlimit) h.limit_le, h.size_le⟩
  · have hframes := h.frames
    rw [hfree, List.nil_append] at hframes
    change (_ :: owned).Perm ((List.range (pool.fresh + 1)).map _)
    rw [List.range_succ, List.map_append]
    exact (hframes.cons _).trans (List.perm_append_singleton _ _).symm
  · intro index hindex
    exact inUse_iff_of_cons h hplace (Nat.lt_of_lt_of_eq hindex hlimit)
  · change pool.allocations + 1 = pool.releases + (owned.length + 1)
    rw [h.allocations, Nat.add_assoc]

theorem allocate_of_room (h : pool.HandedOut owned) (hroom : owned.length < pool.limit) :
    ∃ frame next, pool.allocate = (some frame, next) ∧ next.HandedOut (frame :: owned) ∧
      pool.Allocates next := by
  cases hfree : pool.free with
  | cons frame rest => exact ⟨frame, h.allocate_of_free hfree⟩
  | nil =>
      have hlength := h.length_free
      rw [hfree, List.length_nil, Nat.zero_add] at hlength
      exact ⟨_, h.allocate_of_fresh hfree (hlength ▸ hroom)⟩

end HandedOut

theorem allocate_of_none {pool : FramePool} (h : pool.allocate.1 = none) :
    pool.allocate = (none, pool) := by
  rw [allocate] at h ⊢
  split at h
  · cases h
  · split at h
    · cases h
    · rename_i hfree hfull
      simp only [hfree, if_neg hfull]

theorem HandedOut.allocate_of_some {pool next : FramePool} {owned : List PhysicalAddress}
    (h : pool.HandedOut owned) {frame : PhysicalAddress}
    (hallocate : pool.allocate = (some frame, next)) :
    next.HandedOut (frame :: owned) ∧ pool.Allocates next := by
  rcases Nat.lt_or_eq_of_le h.length_le with hroom | hfull
  · obtain ⟨other, after, hfound, hnext⟩ := h.allocate_of_room hroom
    rw [hallocate] at hfound
    cases hfound
    exact hnext
  · rw [h.allocate_of_full hfull] at hallocate
    cases hallocate

def takeBack (pool : FramePool) (frame : PhysicalAddress) : FramePool :=
  { pool with
    free := frame :: pool.free
    inUse := pool.inUse.setIfInBounds frame.frameIndex false
    releases := pool.releases + 1 }

@[simp] theorem limit_takeBack (pool : FramePool) (frame : PhysicalAddress) :
    (pool.takeBack frame).limit = pool.limit :=
  Array.size_setIfInBounds

namespace HandedOut

variable {pool : FramePool} {owned : List PhysicalAddress}

theorem release_of_mem (h : pool.HandedOut owned) {frame : PhysicalAddress} (hmem : frame ∈ owned) :
    pool.release frame = .ok (pool.takeBack frame) := by
  have hfree := List.mem_append_right pool.free hmem
  obtain ⟨hindex, hframe⟩ := h.index_of_mem hfree
  have huse := (h.inUse_iff _ (Nat.lt_of_lt_of_le hindex h.fresh_le)).mpr (hframe ▸ hmem)
  rw [release, h.isPageAligned hfree, huse]
  rfl

theorem release_of_not_mem (h : pool.HandedOut owned) {frame : PhysicalAddress}
    (hmem : frame ∉ owned) :
    pool.release frame = .error (.notAllocated frame.word) := by
  rw [release, if_neg]
  rw [Bool.and_eq_true]
  rintro ⟨haligned, huse⟩
  have hindex : frame.frameIndex < pool.limit := by
    by_contra hlt
    rw [isInUse, Array.getElem?_eq_none (Nat.le_of_not_lt hlt)] at huse
    contradiction
  have hframe := (h.inUse_iff _ hindex).mp huse
  rw [PhysicalAddress.ofFrameIndex_frameIndex haligned] at hframe
  exact hmem hframe

theorem takeBack (h : pool.HandedOut owned) {frame : PhysicalAddress} (hmem : frame ∈ owned) :
    (pool.takeBack frame).HandedOut (owned.erase frame) := by
  obtain ⟨hindex, hframe⟩ := h.index_of_mem (List.mem_append_right pool.free hmem)
  have hplace := Nat.lt_of_lt_of_le hindex h.fresh_le
  refine ⟨?_, ?_, ?_, (limit_takeBack pool frame).symm ▸ h.fresh_le,
    (limit_takeBack pool frame).symm ▸ h.limit_le, h.size_le⟩
  · have hback : (frame :: pool.free ++ owned.erase frame).Perm (pool.free ++ owned) :=
      List.perm_middle.symm.trans ((List.perm_cons_erase hmem).symm.append_left _)
    exact hback.trans h.frames
  · intro index hlt
    rw [limit_takeBack] at hlt
    change (pool.inUse.setIfInBounds frame.frameIndex false)[index]?.getD false = true ↔ _
    rw [isInUse_setIfInBounds pool hplace, h.nodup.mem_erase_iff]
    by_cases heq : index = frame.frameIndex
    · rw [if_pos heq, heq, ← hframe]
      simp
    · rw [if_neg heq, h.inUse_iff index hlt]
      refine ⟨fun hin => ⟨fun hsame => heq ?_, hin⟩, And.right⟩
      exact h.ofFrameIndex_inj hlt hplace (hsame.trans hframe)
  · have hpos := List.length_pos_of_mem hmem
    change pool.allocations = pool.releases + 1 + (owned.erase frame).length
    rw [List.length_erase_of_mem hmem, h.allocations]
    omega

end HandedOut

def takeBackAll (pool : FramePool) (frames : List PhysicalAddress) : FramePool :=
  frames.foldl FramePool.takeBack pool

@[simp] theorem memory_takeBackAll (pool : FramePool) (frames : List PhysicalAddress) :
    (pool.takeBackAll frames).memory = pool.memory := by
  induction frames generalizing pool with
  | nil => rfl
  | cons frame frames ih => exact ih (pool.takeBack frame)

@[simp] theorem limit_takeBackAll (pool : FramePool) (frames : List PhysicalAddress) :
    (pool.takeBackAll frames).limit = pool.limit := by
  induction frames generalizing pool with
  | nil => rfl
  | cons frame frames ih => exact (ih (pool.takeBack frame)).trans (limit_takeBack pool frame)

@[simp] theorem allocations_takeBackAll (pool : FramePool) (frames : List PhysicalAddress) :
    (pool.takeBackAll frames).allocations = pool.allocations := by
  induction frames generalizing pool with
  | nil => rfl
  | cons frame frames ih => exact ih (pool.takeBack frame)

@[simp] theorem releases_takeBackAll (pool : FramePool) (frames : List PhysicalAddress) :
    (pool.takeBackAll frames).releases = pool.releases + frames.length := by
  induction frames generalizing pool with
  | nil => rfl
  | cons frame frames ih =>
      refine (ih (pool.takeBack frame)).trans ?_
      change pool.releases + 1 + frames.length = pool.releases + (frames.length + 1)
      omega

theorem HandedOut.takeBackAll {pool : FramePool} {frames rest : List PhysicalAddress}
    (h : pool.HandedOut (frames ++ rest)) : (pool.takeBackAll frames).HandedOut rest := by
  induction frames generalizing pool with
  | nil => exact h
  | cons frame frames ih =>
      apply ih
      simpa using h.takeBack List.mem_cons_self

theorem allocateFrame_eq (id : PoolId) (pool : FramePool) :
    allocateFrame id pool =
      ⟨.ok pool.allocate.1, pool.allocate.2, [.allocated id pool.allocate.1]⟩ := rfl

theorem releaseFrame_of_mem {pool : FramePool} {owned : List PhysicalAddress}
    (h : pool.HandedOut owned) (id : PoolId) {frame : PhysicalAddress} (hmem : frame ∈ owned) :
    releaseFrame id frame pool = ⟨.ok (), pool.takeBack frame, [.releasing id frame]⟩ := by
  simp [releaseFrame, h.release_of_mem hmem, Outcome.after]

theorem releaseFrame_of_not_mem {pool : FramePool} {owned : List PhysicalAddress}
    (h : pool.HandedOut owned) (id : PoolId) {frame : PhysicalAddress} (hmem : frame ∉ owned) :
    releaseFrame id frame pool =
      ⟨.error (.violated (.notAllocated frame.word)), pool, [.releasing id frame]⟩ := by
  simp [releaseFrame, h.release_of_not_mem hmem, Outcome.after]

theorem releaseFrame_cases (id : PoolId) (frame : PhysicalAddress) (pool : FramePool) :
    (∃ next, releaseFrame id frame pool = ⟨.ok (), next, [.releasing id frame]⟩) ∨
      ∃ reason, releaseFrame id frame pool = ⟨.error reason, pool, [.releasing id frame]⟩ := by
  cases hrelease : pool.release frame with
  | ok next => exact .inl ⟨next, by simp [releaseFrame, hrelease, Outcome.after]⟩
  | error reason =>
      exact .inr ⟨.violated reason, by simp [releaseFrame, hrelease, Outcome.after]⟩

theorem releaseFrames_of_handedOut {pool : FramePool} (id : PoolId)
    {frames rest : List PhysicalAddress} (h : pool.HandedOut (frames ++ rest)) :
    releaseFrames id frames pool =
      ⟨.ok (), pool.takeBackAll frames, frames.map (.releasing id)⟩ := by
  induction frames generalizing pool with
  | nil => rfl
  | cons frame frames ih =>
      have hnext : (pool.takeBack frame).HandedOut (frames ++ rest) := by
        simpa using h.takeBack List.mem_cons_self
      rw [releaseFrames, Action.bind_of_ok (releaseFrame_of_mem h id List.mem_cons_self), ih hnext]
      rfl

theorem HandedOut.releaseFrames {pool : FramePool} {owned : List PhysicalAddress}
    (h : pool.HandedOut owned) (id : PoolId) {frames : List PhysicalAddress}
    (hresult : (releaseFrames id frames pool).result = .ok ()) :
    ∃ rest, (FramePool.releaseFrames id frames pool).state.HandedOut rest ∧
      (FramePool.releaseFrames id frames pool).state.limit = pool.limit ∧
      rest.length + frames.length = owned.length := by
  induction frames generalizing pool owned with
  | nil => exact ⟨owned, h, rfl, rfl⟩
  | cons frame frames ih =>
      by_cases hmem : frame ∈ owned
      · have hrun := Action.bind_of_ok (f := fun _ => FramePool.releaseFrames id frames)
          (releaseFrame_of_mem h id hmem)
        rw [FramePool.releaseFrames, hrun] at hresult ⊢
        obtain ⟨rest, hrest, hlimit, hlength⟩ := ih (h.takeBack hmem) hresult
        refine ⟨rest, hrest, hlimit.trans (limit_takeBack pool frame), ?_⟩
        have := List.length_pos_of_mem hmem
        rw [List.length_erase_of_mem hmem] at hlength
        rw [List.length_cons]
        omega
      · rw [FramePool.releaseFrames,
          Action.bind_of_error (releaseFrame_of_not_mem h id hmem)] at hresult
        cases hresult

def withContents (pool : FramePool) (frame : PhysicalAddress) (page : Page) : FramePool :=
  { pool with memory := pool.memory.withContents frame page }

theorem HandedOut.withContents {pool : FramePool} {owned : List PhysicalAddress}
    (h : pool.HandedOut owned)
    (frame : PhysicalAddress) (page : Page) : (pool.withContents frame page).HandedOut owned :=
  h.withMemory (Memory.size_pages_withContents pool.memory frame page)

theorem HandedOut.contents_withContents_first {pool : FramePool} {frame : PhysicalAddress}
    {owned : List PhysicalAddress} (h : pool.HandedOut (frame :: owned)) (page : Page) :
    (pool.withContents frame page).memory.contents frame = page :=
  (Memory.contents_withContents h.holds_first page frame).trans (if_pos rfl)

theorem HandedOut.contents_withContents {pool : FramePool} {frame : PhysicalAddress}
    {owned : List PhysicalAddress} (h : pool.HandedOut (frame :: owned)) (page : Page)
    {other : PhysicalAddress} (hother : other ∈ owned) :
    (pool.withContents frame page).memory.contents other = pool.memory.contents other := by
  have hmem : frame ∈ pool.free ++ frame :: owned := by simp
  have hin : other ∈ pool.free ++ frame :: owned := by simp [hother]
  have hne : other.frameIndex ≠ frame.frameIndex := by
    intro heq
    have hsame : other = frame := by
      rw [(h.index_of_mem hin).2, (h.index_of_mem hmem).2, heq]
    exact (List.nodup_cons.mp h.nodup).1 (hsame ▸ hother)
  exact (Memory.contents_withContents h.holds_first page other).trans (if_neg hne)

/-- What it means that every frame that was left in a pool has been taken and given back. The frames
of others, the owned ones, still hold the same bytes. -/
structure GivesBack (pool : FramePool) (owned : List PhysicalAddress) (next : FramePool) :
    Prop where
  handedOut : next.HandedOut owned
  limit : next.limit = pool.limit
  allocations : next.allocations = pool.allocations + (pool.limit - owned.length)
  releases : next.releases = pool.releases + (pool.limit - owned.length)
  contents : ∀ frame ∈ owned, next.memory.contents frame = pool.memory.contents frame

theorem zeroFrame_of_holds (id : PoolId) {pool : FramePool} {frame : PhysicalAddress}
    (h : pool.memory.Holds frame) :
    zeroFrame id frame pool = ⟨.ok (), pool.withContents frame Page.zero, [.zeroing id frame]⟩ := by
  simp [zeroFrame, onMemory, Memory.zeroFrame_of_holds h, Outcome.after, withContents]

theorem copyFrame_of_holds {pool : FramePool} {source target : PhysicalAddress}
    (hsource : pool.memory.Holds source) (htarget : pool.memory.Holds target) :
    copyFrame source target pool =
      ⟨.ok (), pool.withContents target (pool.memory.contents source), []⟩ := by
  simp [copyFrame, onMemory, Memory.copyFrame_of_holds hsource htarget, withContents]

end FramePool

end DemandPaging
