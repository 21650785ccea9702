import Mathlib.Order.Bounds.Basic
import DemandPaging.Proofs.PoolJournal

namespace DemandPaging

namespace FramePool

namespace Journal

/-- The frames that were released and not returned again since, the one released last first. -/
def freed : Journal → List PhysicalAddress
  | [] => []
  | (.allocate, .ok (some frame)) :: earlier => (freed earlier).erase frame
  | (.release frame, .ok _) :: earlier => frame :: freed earlier
  | _ :: earlier => freed earlier

/-- The largest number of frames that were outstanding at the same time. -/
def peak : Journal → Nat
  | [] => 0
  | entry :: earlier => max (outstanding (entry :: earlier)).card (peak earlier)

theorem card_outstanding_le_peak (journal : Journal) :
    journal.outstanding.card ≤ peak journal := by
  cases journal with
  | nil => exact Nat.le_of_eq Finset.card_empty
  | cons entry earlier => exact Nat.le_max_left _ _

theorem isGreatest_peak (journal : Journal) :
    IsGreatest {count | ∃ earlier : Journal, earlier <:+ journal ∧
      earlier.outstanding.card = count} journal.peak := by
  induction journal with
  | nil =>
      refine ⟨⟨[], List.suffix_refl _, Finset.card_empty⟩, ?_⟩
      rintro count ⟨earlier, hearlier, rfl⟩
      rw [List.suffix_nil.mp hearlier]
      exact card_outstanding_le_peak []
  | cons entry journal ih =>
      constructor
      · rcases max_choice (outstanding (entry :: journal)).card (peak journal) with hmax | hmax
        · exact ⟨_, List.suffix_refl _, hmax.symm⟩
        · obtain ⟨earlier, hearlier, hcard⟩ := ih.1
          exact ⟨earlier, hearlier.trans (List.suffix_cons entry journal), hcard.trans hmax.symm⟩
      · rintro count ⟨earlier, hearlier, rfl⟩
        rcases List.suffix_cons_iff.mp hearlier with rfl | hsuffix
        · exact card_outstanding_le_peak _
        · exact (ih.2 ⟨earlier, hsuffix, rfl⟩).trans (Nat.le_max_right _ _)

end Journal

/-- The free list of a pool is what was freed, and the lowest frame that was never handed out is
told by the peak. -/
structure Reuses (pool : FramePool) (journal : Journal) : Prop where
  free_eq : pool.free = journal.freed
  fresh_eq : pool.fresh = journal.peak

namespace Reuses

variable {limit : UInt64} {pool next : FramePool} {journal : Journal} {frame : PhysicalAddress}

theorem peak_of_same (journal : Journal) {entry : Call × Except Stop (Option PhysicalAddress)}
    (h : Journal.outstanding (entry :: journal) ⊆ journal.outstanding) :
    Journal.peak (entry :: journal) = journal.peak :=
  Nat.max_eq_right ((Finset.card_le_card h).trans journal.card_outstanding_le_peak)

/-- A frame that was free has been outstanding before, together with all that are outstanding now.
A frame that was never handed out is taken when all others are outstanding, which is a new peak. -/
theorem allocate (h : pool.Reuses journal) (hmatches : Matches limit pool journal)
    (hallocate : pool.allocate = (some frame, next)) (hnew : frame ∉ journal.outstanding) :
    next.Reuses ((.allocate, .ok (some frame)) :: journal) := by
  have hlength := hmatches.handedOut.length_free
  rw [Finset.length_toList] at hlength
  have hcard : (Journal.outstanding ((.allocate, .ok (some frame)) :: journal)).card =
      journal.outstanding.card + 1 := Finset.card_insert_of_notMem hnew
  have hpeak := h.fresh_eq
  rcases allocate_cases hallocate with ⟨hfree, hfresh⟩ | ⟨hfree, hnone, -, hfresh⟩
  · rw [hfree, List.length_cons] at hlength
    constructor
    · rw [Journal.freed, ← h.free_eq, hfree, List.erase_cons_head]
    · rw [Journal.peak, hcard, hfresh]
      omega
  · rw [hfree, List.length_nil] at hlength
    constructor
    · rw [Journal.freed, ← h.free_eq, hfree, hnone, List.erase_nil]
    · rw [Journal.peak, hcard, hfresh]
      omega

theorem step (h : pool.Reuses journal) (hmatches : Matches limit pool journal) (id : PoolId)
    (call : Call) :
    (call.perform id pool).state.Reuses ((call, (call.perform id pool).result) :: journal) := by
  cases call with
  | allocate =>
      rw [perform_allocate]
      rcases Nat.lt_or_eq_of_le hmatches.card_le with hroom | hfull
      · obtain ⟨frame, next, hallocate, hnew, -⟩ := hmatches.exists_allocate hroom
        rw [hallocate]
        exact h.allocate hmatches hallocate hnew
      · rw [hmatches.allocate_of_full hfull]
        exact ⟨h.free_eq, h.fresh_eq.trans (peak_of_same journal (Finset.Subset.refl _)).symm⟩
  | release frame =>
      by_cases hmem : frame ∈ journal.outstanding
      · rw [perform_release_of_mem hmatches.handedOut id (Finset.mem_toList.mpr hmem)]
        exact ⟨congrArg (frame :: ·) h.free_eq,
          h.fresh_eq.trans (peak_of_same journal (Finset.erase_subset _ _)).symm⟩
      · rw [perform_release_of_not_mem hmatches.handedOut id (mt Finset.mem_toList.mp hmem)]
        exact ⟨h.free_eq, h.fresh_eq.trans (peak_of_same journal (Finset.Subset.refl _)).symm⟩

end Reuses

theorem Journaled.reuses {limit : UInt64} {pool : FramePool} {journal : Journal}
    (h : Journaled limit pool journal) : pool.Reuses journal := by
  refine Reached.keeps h (P := fun s => s.1.Reuses s.2) ?_ ?_
  · rintro ⟨pool, journal⟩ ⟨hnew, rfl⟩
    exact ⟨(unused_of_new hnew).1, (unused_of_new hnew).2⟩
  · rintro ⟨pool, journal⟩ ⟨id, call⟩ hreached - ih
    exact ih.step (Journaled.agrees hreached) id call

/-- How a pool chooses frames, told by its journal. -/
structure ReusesFirst (limit : UInt64) (pool : FramePool) (journal : Journal) : Prop where
  isGreatest_peak : IsGreatest {count | ∃ earlier : Journal, earlier <:+ journal ∧
    earlier.outstanding.card = count} journal.peak
  card_returned : journal.returned.card = journal.peak
  mem_returned_iff : ∀ frame, frame ∈ journal.returned ↔
    ∃ index < journal.peak, frame.word.toNat = index * Layout.pageSize
  mem_freed_iff : ∀ frame, frame ∈ journal.freed ↔
    frame ∈ journal.returned ∧ frame ∉ journal.outstanding
  /-- While one of them is free, the next one is the one that was freed last. -/
  reused : ∀ id, ∀ frame ∈ journal.freed.head?, (allocateFrame id pool).result = .ok (some frame)
  /-- Otherwise it is the lowest that was never returned, if the limit allows for one more. -/
  fresh : ∀ id, journal.freed = [] → journal.peak < limit.toNat →
    ∃ frame, (allocateFrame id pool).result = .ok (some frame) ∧
      frame.word.toNat = journal.peak * Layout.pageSize

namespace Reuses

variable {limit : UInt64} {pool : FramePool} {journal : Journal} (h : pool.Reuses journal)
  (hmatches : Matches limit pool journal)

include h hmatches

theorem mem_returned_iff (frame : PhysicalAddress) :
    frame ∈ journal.returned ↔
      ∃ index < journal.peak, frame.word.toNat = index * Layout.pageSize := by
  have hbelow : frame ∈ journal.returned ↔
      frame ∈ (List.range pool.fresh).map PhysicalAddress.ofFrameIndex := by
    rw [hmatches.mem_returned_iff, ← hmatches.handedOut.frames.mem_iff, List.mem_append,
      Finset.mem_toList]
  rw [hbelow, List.mem_map, ← h.fresh_eq]
  refine exists_congr fun index => ?_
  rw [List.mem_range]
  refine and_congr_right fun hindex => ?_
  have hlimit := Nat.lt_of_lt_of_le hindex hmatches.handedOut.fresh_le
  exact PhysicalAddress.ofFrameIndex_eq_iff (hmatches.handedOut.address_lt hlimit)

theorem card_returned : journal.returned.card = journal.peak := by
  have hreturned : journal.returned = (pool.free ++ journal.outstanding.toList).toFinset := by
    ext frame
    rw [hmatches.mem_returned_iff, List.mem_toFinset, List.mem_append, Finset.mem_toList]
  rw [hreturned, List.toFinset_card_of_nodup hmatches.handedOut.nodup_frames, List.length_append,
    hmatches.handedOut.length_free, h.fresh_eq]

theorem reusesFirst : pool.ReusesFirst limit journal where
  isGreatest_peak := journal.isGreatest_peak
  card_returned := h.card_returned hmatches
  mem_returned_iff := h.mem_returned_iff hmatches
  mem_freed_iff frame := by
    rw [← h.free_eq]
    exact hmatches.actsAsSet.mem_free_iff frame
  reused id frame hframe := by
    obtain ⟨rest, hfreed⟩ := List.head?_eq_some_iff.mp hframe
    rw [allocateFrame_eq, FramePool.allocate, h.free_eq, hfreed]
  fresh id hfreed hroom := by
    have hfree : pool.free = [] := h.free_eq.trans hfreed
    have hlimit : pool.fresh < pool.limit := by rwa [h.fresh_eq, hmatches.limit_eq]
    refine ⟨.ofFrameIndex pool.fresh, ?_, ?_⟩
    · rw [allocateFrame_eq, FramePool.allocate, hfree]
      simp only [if_pos hlimit]
    · rw [← h.fresh_eq,
        ← PhysicalAddress.ofFrameIndex_eq_iff (hmatches.handedOut.address_lt hlimit)]

end Reuses

/-- Frames that were given back are handed out before fresh ones, in every state that allocations
and releases can lead to, also if some of them failed. -/
theorem reusesFirst_of_journaled {limit : UInt64} {pool : FramePool} {journal : Journal}
    (h : Journaled limit pool journal) : pool.ReusesFirst limit journal :=
  h.reuses.reusesFirst h.agrees

def threeFrames : FramePool :=
  ⟨⟨#[Page.zero, Page.zero, Page.zero]⟩, [], 0, #[false, false, false], 0, 0⟩

/-- Two frames were allocated and both released, the first of them twice, and one was allocated
again. -/
def allocatedAgain : FramePool × Journal :=
  [(0, .allocate), (0, .allocate), (0, .release ⟨0x1000⟩), (0, .release ⟨0⟩), (0, .release ⟨0⟩),
    (0, .allocate)].foldl journaling (threeFrames, [])

theorem journaled_allocatedAgain (hnew : FramePool.new 3 = .ok threeFrames) :
    Journaled 3 allocatedAgain.1 allocatedAgain.2 :=
  Reached.run (.start ⟨hnew, rfl⟩) (.of_forall fun _ _ _ => trivial)

theorem reusesFirst_of_allocatedAgain :
    FramePool.new 3 = .ok threeFrames ∧ allocatedAgain.2.peak = 2 ∧
      allocatedAgain.2.freed = [⟨0x1000⟩] ∧
      allocatedAgain.1.ReusesFirst 3 allocatedAgain.2 := by
  have hnew : FramePool.new 3 = .ok threeFrames := by rfl
  exact ⟨hnew, by decide +kernel, by decide +kernel,
    reusesFirst_of_journaled (journaled_allocatedAgain hnew)⟩

end FramePool

end DemandPaging
