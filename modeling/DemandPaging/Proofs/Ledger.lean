import DemandPaging.Proofs.FramePool

namespace DemandPaging

inductive Turn
  | allocate
  | release (allocation : Nat)

/-- How a turn ends. A caller does not release what it does not keep, and a pool may refuse to take
back a frame. -/
inductive Turnout
  | allocated
  | exhausted
  | released
  | refused
  | notKept
  deriving DecidableEq

/-- The frames that came from the allocations of a caller. One that was released is crossed out. -/
abbrev Ledger := List (Option PhysicalAddress)

def Ledger.kept (ledger : Ledger) : List PhysicalAddress :=
  ledger.filterMap id

namespace FramePool

def turnouts (pool : FramePool) (ledger : Ledger) : List Turn → List Turnout
  | [] => []
  | .allocate :: turns =>
      match pool.allocate with
      | (some frame, next) => .allocated :: turnouts next (ledger ++ [some frame]) turns
      | (none, next) => .exhausted :: turnouts next ledger turns
  | .release allocation :: turns =>
      match ledger[allocation]?.join with
      | some frame =>
          match pool.release frame with
          | .ok next => .released :: turnouts next (ledger.set allocation none) turns
          | .error _ => .refused :: turnouts pool ledger turns
      | none => .notKept :: turnouts pool ledger turns

section Turnouts

variable {pool next : FramePool} {frame : PhysicalAddress} (ledger : Ledger) (turns : List Turn)

theorem turnouts_of_allocated (h : pool.allocate = (some frame, next)) :
    pool.turnouts ledger (.allocate :: turns) =
      .allocated :: next.turnouts (ledger ++ [some frame]) turns := by
  rw [turnouts, h]

theorem turnouts_of_exhausted (h : pool.allocate = (none, next)) :
    pool.turnouts ledger (.allocate :: turns) = .exhausted :: next.turnouts ledger turns := by
  rw [turnouts, h]

variable {ledger} {allocation : Nat}

theorem turnouts_of_released (hframe : ledger[allocation]?.join = some frame)
    (h : pool.release frame = .ok next) :
    pool.turnouts ledger (.release allocation :: turns) =
      .released :: next.turnouts (ledger.set allocation none) turns := by
  rw [turnouts, hframe]
  simp only [h]

theorem turnouts_of_notKept (hframe : ledger[allocation]?.join = none) :
    pool.turnouts ledger (.release allocation :: turns) =
      .notKept :: pool.turnouts ledger turns := by
  rw [turnouts, hframe]

end Turnouts

/-- The turnouts as far as they can be told from the number of frames that are left and from which
allocations are kept. -/
def foreseen (left : Nat) (kept : List Bool) : List Turn → List Turnout
  | [] => []
  | .allocate :: turns =>
      match left with
      | left + 1 => .allocated :: foreseen left (kept ++ [true]) turns
      | 0 => .exhausted :: foreseen 0 kept turns
  | .release allocation :: turns =>
      if kept[allocation]?.getD false then
        .released :: foreseen (left + 1) (kept.set allocation false) turns
      else .notKept :: foreseen left kept turns

end FramePool

namespace Ledger

theorem kept_append (ledger : Ledger) (frame : PhysicalAddress) :
    kept (ledger ++ [some frame]) = ledger.kept ++ [frame] := by
  simp [kept]

theorem join_eq_some_iff {ledger : Ledger} {allocation : Nat} {frame : PhysicalAddress} :
    ledger[allocation]?.join = some frame ↔ ledger[allocation]? = some (some frame) := by
  simp [Option.join_eq_some_iff]

theorem kept_perm_set {ledger : Ledger} {allocation : Nat} {frame : PhysicalAddress}
    (h : ledger[allocation]? = some (some frame)) :
    ledger.kept.Perm (frame :: kept (ledger.set allocation none)) := by
  induction ledger generalizing allocation with
  | nil => simp at h
  | cons line rest ih =>
      rcases allocation with - | allocation
      · obtain rfl : line = some frame := by simpa using h
        exact List.Perm.refl _
      · have hline : rest[allocation]? = some (some frame) := by simpa using h
        have hrest := ih hline
        rcases line with - | other
        · exact hrest
        · exact (hrest.cons other).trans (List.Perm.swap frame other _)

theorem isSome_join_eq_getD (ledger : Ledger) (allocation : Nat) :
    ledger[allocation]?.join.isSome = (ledger.map Option.isSome)[allocation]?.getD false := by
  rw [List.getElem?_map]
  rcases ledger[allocation]? with - | - | frame <;> rfl

end Ledger

namespace FramePool

variable {pool : FramePool} {ledger : Ledger} {others : List PhysicalAddress}

theorem HandedOut.takeBack_kept (h : pool.HandedOut (ledger.kept ++ others)) {allocation : Nat}
    {frame : PhysicalAddress} (hframe : ledger[allocation]? = some (some frame)) :
    pool.release frame = .ok (pool.takeBack frame) ∧
      (pool.takeBack frame).HandedOut (Ledger.kept (ledger.set allocation none) ++ others) ∧
      (ledger.kept ++ others).length =
        (Ledger.kept (ledger.set allocation none) ++ others).length + 1 := by
  have hperm := (Ledger.kept_perm_set hframe).append_right others
  have hfront := h.perm hperm
  refine ⟨hfront.release_of_mem List.mem_cons_self, ?_, hperm.length_eq⟩
  have hnext := hfront.takeBack List.mem_cons_self
  rwa [List.cons_append, List.erase_cons_head] at hnext

theorem turnouts_eq_foreseen (h : pool.HandedOut (ledger.kept ++ others)) (turns : List Turn) :
    pool.turnouts ledger turns =
      foreseen (pool.limit - (ledger.kept ++ others).length) (ledger.map Option.isSome) turns := by
  -- Others keep their frames throughout, so what is left changes by the turns of this caller alone.
  induction turns generalizing pool ledger with
  | nil => rfl
  | cons turn turns ih =>
      cases turn with
      | allocate =>
          rcases Nat.lt_or_eq_of_le h.length_le with hroom | hfull
          · obtain ⟨frame, next, hallocate, hnext, hchange⟩ := h.allocate_of_room hroom
            have hkept : (frame :: (ledger.kept ++ others)).Perm
                (Ledger.kept (ledger ++ [some frame]) ++ others) := by
              rw [Ledger.kept_append, List.append_assoc]
              exact List.perm_middle.symm
            have hleft : pool.limit - (ledger.kept ++ others).length =
                next.limit - (Ledger.kept (ledger ++ [some frame]) ++ others).length + 1 := by
              rw [← hkept.length_eq, hchange.limit, List.length_cons]
              omega
            rw [turnouts_of_allocated _ _ hallocate, ih (hnext.perm hkept), hleft, foreseen,
              List.map_append]
            rfl
          · have hleft : pool.limit - (ledger.kept ++ others).length = 0 := by omega
            rw [turnouts_of_exhausted _ _ (h.allocate_of_full hfull), ih h, hleft, foreseen]
      | release allocation =>
          have hsame := ledger.isSome_join_eq_getD allocation
          cases hframe : ledger[allocation]?.join with
          | none =>
              rw [hframe] at hsame
              rw [turnouts_of_notKept _ hframe, ih h, foreseen, ← hsame]
              rfl
          | some frame =>
              rw [hframe] at hsame
              obtain ⟨hrelease, hnext, hlength⟩ :=
                h.takeBack_kept (Ledger.join_eq_some_iff.mp hframe)
              have hleft : (pool.takeBack frame).limit -
                    (Ledger.kept (ledger.set allocation none) ++ others).length =
                  pool.limit - (ledger.kept ++ others).length + 1 := by
                have := h.length_le
                rw [limit_takeBack]
                omega
              rw [turnouts_of_released _ hframe hrelease, ih hnext, hleft, foreseen, ← hsame,
                List.map_set]
              rfl

theorem HandedOut.exists_others {owned : List PhysicalAddress} (h : pool.HandedOut owned)
    (hnodup : ledger.kept.Nodup) (hsubset : ledger.kept ⊆ pool.framesInUse) :
    ∃ others, owned.Perm (ledger.kept ++ others) := by
  have hin : ledger.kept ⊆ owned :=
    fun frame hframe => h.framesInUse_perm.mem_iff.mp (hsubset hframe)
  obtain ⟨listed, hlisted, hsublist⟩ := List.subperm_of_subset hnodup hin
  obtain ⟨others, hothers⟩ := hsublist.exists_perm_append
  exact ⟨others, hothers.trans (hlisted.append_right others)⟩

/-- What it means that no caller can tell one pool from another, except by how often frames were
handed out and taken back: the frames in use are the same and hold the same bytes, and all later
turns end in the same way. -/
structure LeavesNoTrace (pool next : FramePool) : Prop where
  allocations : next.allocations = pool.allocations + (pool.limit - pool.outstanding)
  releases : next.releases = pool.releases + (pool.limit - pool.outstanding)
  outstanding : next.outstanding = pool.outstanding
  framesInUse : next.framesInUse = pool.framesInUse
  bytes : ∀ frame ∈ pool.framesInUse, pool.memory.SameBytes frame next.memory frame
  turnouts : ∀ ledger : Ledger, ledger.kept.Nodup → ledger.kept ⊆ pool.framesInUse →
    ∀ turns, next.turnouts ledger turns = pool.turnouts ledger turns

theorem GivesBack.leavesNoTrace {next : FramePool} {owned : List PhysicalAddress}
    (h : pool.GivesBack owned next) (howned : pool.HandedOut owned) :
    pool.LeavesNoTrace next where
  allocations := by rw [h.allocations, howned.outstanding_eq]
  releases := by rw [h.releases, howned.outstanding_eq]
  outstanding := by rw [h.handedOut.outstanding_eq, howned.outstanding_eq]
  framesInUse := h.handedOut.framesInUse_eq howned h.limit
  bytes := by
    intro frame hframe
    have hin := howned.framesInUse_perm.mem_iff.mp hframe
    exact howned.sameBytes_of_mem h.handedOut hin hin (h.contents frame hin)
  turnouts := by
    intro ledger hnodup hsubset turns
    obtain ⟨others, hperm⟩ := howned.exists_others hnodup hsubset
    rw [turnouts_eq_foreseen (h.handedOut.perm hperm), turnouts_eq_foreseen (howned.perm hperm),
      h.limit]

end FramePool

end DemandPaging
