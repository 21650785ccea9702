import Mathlib.Data.Finset.Dedup
import Mathlib.Data.Finset.Insert
import DemandPaging.Proofs.InRange
import DemandPaging.Proofs.Runs

namespace DemandPaging

namespace FramePool

/-- What may be asked of a pool. Any address may be released. -/
inductive Call
  | allocate
  | release (frame : PhysicalAddress)
  deriving DecidableEq, Repr

def Call.perform (id : PoolId) : Call → Action FramePool (Option PhysicalAddress)
  | allocate => allocateFrame id
  | release frame => do
      releaseFrame id frame
      return none

/-- The calls made so far with their results, the last one first. -/
abbrev Journal := List (Call × Except Stop (Option PhysicalAddress))

namespace Journal

/-- The frames that were returned and not successfully released since. -/
def outstanding : Journal → Finset PhysicalAddress
  | [] => ∅
  | (.allocate, .ok (some frame)) :: earlier => insert frame (outstanding earlier)
  | (.release frame, .ok _) :: earlier => (outstanding earlier).erase frame
  | _ :: earlier => outstanding earlier

def returned : Journal → Finset PhysicalAddress
  | [] => ∅
  | (.allocate, .ok (some frame)) :: earlier => insert frame (returned earlier)
  | _ :: earlier => returned earlier

end Journal

def journaling (s : FramePool × Journal) (named : PoolId × Call) : FramePool × Journal :=
  let outcome := named.2.perform named.1 s.1
  (outcome.state, (named.2, outcome.result) :: s.2)

/-- The states of a pool, made for at most so many frames, with the journals that lead to them.
Calls that failed are in the journal as well. -/
def Journaled (limit : UInt64) (pool : FramePool) (journal : Journal) : Prop :=
  Reached (fun s => FramePool.new limit = .ok s.1 ∧ s.2 = []) (fun _ _ => True) journaling
    (pool, journal)

/-- The free list, the marks and the counts of a pool agree with its journal. -/
structure Matches (limit : UInt64) (pool : FramePool) (journal : Journal) : Prop where
  handedOut : pool.HandedOut journal.outstanding.toList
  limit_eq : pool.limit = limit.toNat
  mem_returned_iff : ∀ frame, frame ∈ journal.returned ↔
    frame ∈ pool.free ∨ frame ∈ journal.outstanding

theorem unused_of_new {limit : UInt64} {pool : FramePool} (h : FramePool.new limit = .ok pool) :
    pool.free = [] ∧ pool.fresh = 0 := by
  simp only [FramePool.new, bind, Except.bind] at h
  split at h
  · contradiction
  split at h
  · contradiction
  obtain rfl := Except.ok.inj h
  exact ⟨rfl, rfl⟩

section Perform

variable {pool next : FramePool} {owned : List PhysicalAddress} {frame : PhysicalAddress}

theorem allocate_cases (h : pool.allocate = (some frame, next)) :
    pool.free = frame :: next.free ∧ next.fresh = pool.fresh ∨
      pool.free = [] ∧ next.free = [] ∧ frame = .ofFrameIndex pool.fresh ∧
        next.fresh = pool.fresh + 1 := by
  rw [allocate] at h
  split at h
  · rename_i first rest hfree
    obtain ⟨hframe, rfl⟩ := Prod.mk.inj h
    obtain rfl := Option.some.inj hframe
    exact .inl ⟨hfree, rfl⟩
  · rename_i hfree
    split at h
    · obtain ⟨hframe, rfl⟩ := Prod.mk.inj h
      exact .inr ⟨hfree, hfree, (Option.some.inj hframe).symm, rfl⟩
    · cases h

theorem perform_allocate (id : PoolId) (pool : FramePool) :
    Call.allocate.perform id pool =
      ⟨.ok pool.allocate.1, pool.allocate.2, [.allocated id pool.allocate.1]⟩ :=
  allocateFrame_eq id pool

theorem perform_release_of_mem (h : pool.HandedOut owned) (id : PoolId) (hmem : frame ∈ owned) :
    (Call.release frame).perform id pool =
      ⟨.ok none, pool.takeBack frame, [.releasing id frame]⟩ :=
  Action.bind_of_ok (releaseFrame_of_mem h id hmem)

theorem perform_release_of_not_mem (h : pool.HandedOut owned) (id : PoolId)
    (hmem : frame ∉ owned) :
    (Call.release frame).perform id pool =
      ⟨.error (.violated (.notAllocated frame.word)), pool, [.releasing id frame]⟩ :=
  Action.bind_of_error (releaseFrame_of_not_mem h id hmem)

end Perform

namespace Matches

variable {limit : UInt64} {pool next : FramePool} {journal : Journal} {frame : PhysicalAddress}

theorem new (h : FramePool.new limit = .ok pool) : Matches limit pool [] where
  handedOut := by
    rw [Journal.outstanding, Finset.toList_empty]
    exact (handedOut_new h).1
  limit_eq := (handedOut_new h).2
  mem_returned_iff frame := by
    rw [(unused_of_new h).1, Journal.returned, Journal.outstanding]
    simp

theorem allocate_of_full (h : Matches limit pool journal)
    (hfull : journal.outstanding.card = limit.toNat) : pool.allocate = (none, pool) := by
  apply h.handedOut.allocate_of_full
  rw [Finset.length_toList, hfull, h.limit_eq]

theorem card_le (h : Matches limit pool journal) :
    journal.outstanding.card ≤ limit.toNat := by
  rw [← Finset.length_toList, ← h.limit_eq]
  exact h.handedOut.length_le

theorem exists_allocate (h : Matches limit pool journal)
    (hroom : journal.outstanding.card < limit.toNat) :
    ∃ frame next, pool.allocate = (some frame, next) ∧ frame ∉ journal.outstanding ∧
      Matches limit next ((.allocate, .ok (some frame)) :: journal) := by
  obtain ⟨frame, next, hallocate, hnext, hchange⟩ :=
    h.handedOut.allocate_of_room (by rwa [Finset.length_toList, h.limit_eq])
  have hnew : frame ∉ journal.outstanding := by
    rw [← Finset.mem_toList]
    exact (List.nodup_cons.mp hnext.nodup).1
  refine ⟨frame, next, hallocate, hnew, ?_, hchange.limit.trans h.limit_eq, fun other => ?_⟩
  · exact hnext.perm (Finset.toList_insert hnew).symm
  · rw [Journal.returned, Journal.outstanding, Finset.mem_insert, Finset.mem_insert,
      h.mem_returned_iff]
    rcases allocate_cases hallocate with ⟨hfree, -⟩ | ⟨hfree, hnone, -⟩
    · rw [hfree, List.mem_cons]
      tauto
    · rw [hfree, hnone]
      tauto

theorem release (h : Matches limit pool journal) (hmem : frame ∈ journal.outstanding)
    (reply : Option PhysicalAddress) :
    Matches limit (pool.takeBack frame) ((.release frame, .ok reply) :: journal) where
  handedOut := by
    have hperm : (journal.outstanding.toList.erase frame).Perm
        (journal.outstanding.erase frame).toList := by
      rw [List.perm_ext_iff_of_nodup (journal.outstanding.nodup_toList.erase frame)
        (Finset.nodup_toList _)]
      intro other
      rw [journal.outstanding.nodup_toList.mem_erase_iff, Finset.mem_toList, Finset.mem_toList,
        Finset.mem_erase]
    exact (h.handedOut.takeBack (Finset.mem_toList.mpr hmem)).perm hperm
  limit_eq := (limit_takeBack pool frame).trans h.limit_eq
  mem_returned_iff other := by
    change other ∈ journal.returned ↔
      other ∈ frame :: pool.free ∨ other ∈ journal.outstanding.erase frame
    rw [h.mem_returned_iff, List.mem_cons, Finset.mem_erase]
    by_cases heq : other = frame
    · simp [heq, hmem]
    · simp [heq]

theorem step (h : Matches limit pool journal) (id : PoolId) (call : Call) :
    Matches limit (call.perform id pool).state
      ((call, (call.perform id pool).result) :: journal) := by
  cases call with
  | allocate =>
      rw [perform_allocate]
      rcases Nat.lt_or_eq_of_le h.card_le with hroom | hfull
      · obtain ⟨frame, next, hallocate, -, hnext⟩ := h.exists_allocate hroom
        rw [hallocate]
        exact hnext
      · rw [h.allocate_of_full hfull]
        exact ⟨h.handedOut, h.limit_eq, h.mem_returned_iff⟩
  | release frame =>
      by_cases hmem : frame ∈ journal.outstanding
      · rw [perform_release_of_mem h.handedOut id (Finset.mem_toList.mpr hmem)]
        exact h.release hmem none
      · rw [perform_release_of_not_mem h.handedOut id (mt Finset.mem_toList.mp hmem)]
        exact ⟨h.handedOut, h.limit_eq, h.mem_returned_iff⟩

end Matches

theorem Journaled.agrees {limit : UInt64} {pool : FramePool} {journal : Journal}
    (h : Journaled limit pool journal) : Matches limit pool journal := by
  refine Reached.keeps h (P := fun s => Matches limit s.1 s.2) ?_ ?_
  · rintro ⟨pool, journal⟩ ⟨hnew, rfl⟩
    exact .new hnew
  · rintro s ⟨id, call⟩ - - ih
    exact ih.step id call

/-- How the next calls of a pool end, and what the pool keeps, is told by the set of the outstanding
frames and by that of all frames returned so far. -/
structure ActsAsSet (limit : UInt64) (pool : FramePool)
    (outstanding returned : Finset PhysicalAddress) : Prop where
  exhausted_iff : ∀ id, (allocateFrame id pool).result = .ok none ↔
    outstanding.card = limit.toNat
  allocated : ∀ id, outstanding.card ≠ limit.toNat →
    ∃ frame, (allocateFrame id pool).result = .ok (some frame) ∧ frame.isPageAligned = true ∧
      frame.word.toNat < limit.toNat * Layout.pageSize ∧ frame ∉ outstanding
  released : ∀ id, ∀ frame ∈ outstanding, (releaseFrame id frame pool).result = .ok ()
  refused : ∀ id, ∀ frame ∉ outstanding,
    (releaseFrame id frame pool).result = .error (.violated (.notAllocated frame.word)) ∧
      (releaseFrame id frame pool).state = pool
  outstanding_eq : pool.outstanding = outstanding.card
  inRange : pool.InRange
  free_nodup : pool.free.Nodup
  mem_free_iff : ∀ frame, frame ∈ pool.free ↔ frame ∈ returned ∧ frame ∉ outstanding
  size_inUse : pool.inUse.size = limit.toNat
  marked_iff : ∀ index < limit.toNat, pool.isInUse index = true ↔
    .ofFrameIndex index ∈ outstanding
  framesInUse : pool.framesInUse.toFinset = outstanding

namespace Matches

variable {limit : UInt64} {pool : FramePool} {journal : Journal} (h : Matches limit pool journal)

include h

theorem frame_of_mem {frame : PhysicalAddress} (hmem : frame ∈ journal.outstanding) :
    frame.isPageAligned = true ∧ frame.word.toNat < limit.toNat * Layout.pageSize := by
  have hlisted := List.mem_append_right pool.free (Finset.mem_toList.mpr hmem)
  obtain ⟨hindex, -⟩ := h.handedOut.index_of_mem hlisted
  have hlimit : frame.frameIndex < limit.toNat :=
    h.limit_eq ▸ Nat.lt_of_lt_of_le hindex h.handedOut.fresh_le
  exact ⟨h.handedOut.isPageAligned hlisted, (Nat.div_lt_iff_lt_mul (by decide)).mp hlimit⟩

theorem allocated (hroom : journal.outstanding.card ≠ limit.toNat) (id : PoolId) :
    ∃ frame, (allocateFrame id pool).result = .ok (some frame) ∧ frame.isPageAligned = true ∧
      frame.word.toNat < limit.toNat * Layout.pageSize ∧ frame ∉ journal.outstanding := by
  obtain ⟨frame, next, hallocate, hnew, hnext⟩ :=
    h.exists_allocate (Nat.lt_of_le_of_ne h.card_le hroom)
  obtain ⟨haligned, hlt⟩ :=
    hnext.frame_of_mem (Finset.mem_insert_self frame journal.outstanding)
  refine ⟨frame, ?_, haligned, hlt, hnew⟩
  rw [allocateFrame_eq, hallocate]

theorem actsAsSet : pool.ActsAsSet limit journal.outstanding journal.returned where
  exhausted_iff id := by
    constructor
    · intro hnone
      by_contra hroom
      obtain ⟨frame, hsome, -⟩ := h.allocated hroom id
      rw [hsome] at hnone
      cases hnone
    · intro hfull
      rw [allocateFrame_eq, h.allocate_of_full hfull]
  allocated id hroom := h.allocated hroom id
  released id frame hmem := by
    rw [releaseFrame_of_mem h.handedOut id (Finset.mem_toList.mpr hmem)]
  refused id frame hmem := by
    rw [releaseFrame_of_not_mem h.handedOut id (mt Finset.mem_toList.mp hmem)]
    exact ⟨rfl, rfl⟩
  outstanding_eq := h.handedOut.outstanding_eq.trans (Finset.length_toList _)
  inRange := h.handedOut.inRange
  free_nodup := h.handedOut.nodup_frames.of_append_left
  mem_free_iff frame := by
    rw [h.mem_returned_iff]
    constructor
    · intro hfree
      exact ⟨.inl hfree, fun hmem =>
        h.handedOut.not_mem_free (Finset.mem_toList.mpr hmem) hfree⟩
    · rintro ⟨hfree | hmem, hnot⟩
      · exact hfree
      · exact absurd hmem hnot
  size_inUse := h.limit_eq
  marked_iff index hindex := by
    rw [h.handedOut.inUse_iff index (h.limit_eq ▸ hindex), Finset.mem_toList]
  framesInUse := by
    rw [List.toFinset_eq_of_perm _ _ h.handedOut.framesInUse_perm, Finset.toList_toFinset]

end Matches

/-- A pool does as the set of its outstanding frames says, in every state that allocations and
releases can lead to, whatever was released on the way. -/
theorem actsAsSet_of_journaled {limit : UInt64} {pool : FramePool} {journal : Journal}
    (h : Journaled limit pool journal) :
    pool.ActsAsSet limit journal.outstanding journal.returned :=
  h.agrees.actsAsSet

def twoFrames : FramePool :=
  ⟨⟨#[Page.zero, Page.zero]⟩, [], 0, #[false, false], 0, 0⟩

/-- Both frames were allocated, one was released twice, and so was an address inside the other. -/
def releasedTwice : FramePool × Journal :=
  [(0, .allocate), (0, .allocate), (0, .release ⟨0⟩), (0, .release ⟨0⟩),
    (0, .release ⟨0x1234⟩)].foldl journaling (twoFrames, [])

theorem journaled_releasedTwice (hnew : FramePool.new 2 = .ok twoFrames) :
    Journaled 2 releasedTwice.1 releasedTwice.2 :=
  Reached.run (.start ⟨hnew, rfl⟩) (.of_forall fun _ _ _ => trivial)

theorem actsAsSet_of_releasedTwice :
    FramePool.new 2 = .ok twoFrames ∧
      releasedTwice.2.outstanding = {⟨0x1000⟩} ∧ releasedTwice.2.returned = {⟨0⟩, ⟨0x1000⟩} ∧
      releasedTwice.1.ActsAsSet 2 releasedTwice.2.outstanding releasedTwice.2.returned := by
  have hnew : FramePool.new 2 = .ok twoFrames := by rfl
  exact ⟨hnew, by decide +kernel, by decide +kernel,
    actsAsSet_of_journaled (journaled_releasedTwice hnew)⟩

end FramePool

end DemandPaging
