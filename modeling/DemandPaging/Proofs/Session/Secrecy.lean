import DemandPaging.Proofs.Secrecy
import DemandPaging.Proofs.Session.Reachable

namespace DemandPaging

namespace Session

variable {n : Nat}

/-- In every reachable session a page is mapped to a frame that was not in use and holds zeros, or
the bytes that are copied, and no byte outside of the frame is changed. Whatever else is in frames
that are not in use makes no difference, neither to what is done nor to the bytes of frames that are
in use then. -/
theorem hidesOldBytes_of_reachable {s : Session n} {held : Holdings} (h : Reachable s held) :
    (∀ slot table pool, table? slot s = some (table, pool) → table.HidesOldBytes pool) ∧
      ∀ slot space pool, space? slot s = some (space, pool) → space.HidesOldBytes pool := by
  constructor
  · intro slot table pool htable
    obtain ⟨owned, hbacked⟩ := h.balances.exists_backed_table htable
    exact hbacked.hidesOldBytes
  · intro slot space pool hspace
    obtain ⟨owned, hbacked⟩ := h.balances.exists_backed hspace
    exact hbacked.hidesOldBytes_space

/-- The only frame was written to and then given back. -/
def writtenAndFreed : Session 1 :=
  (run (ofLimits #[1] #[.sole])
    [.table 0 (.new 0), .table 0 (.create ⟨3⟩ true), .table 0 (.poke ⟨3⟩ 0 [7]),
      .table 0 .destroy]).2

theorem reachable_writtenAndFreed : Reachable writtenAndFreed [] :=
  (reachable_ofLimits #[1] #[.sole]).run
    (⟨trivial, trivial, trivial, trivial, trivial⟩ : HonestRun (ofLimits #[1] #[.sole]) []
      [.table 0 (.new 0), .table 0 (.create ⟨3⟩ true), .table 0 (.poke ⟨3⟩ 0 [7]),
        .table 0 .destroy])

theorem hidesOldBytes_of_writtenAndFreed :
    Reachable writtenAndFreed [] ∧ ∃ table pool entry,
      table? 0 writtenAndFreed = some (table, pool) ∧ pool.memory.byte? 0 = some 7 ∧
      (PageTable.createEntry ⟨5⟩ true (table, pool)).result = .ok entry ∧ entry.frame = ⟨0⟩ ∧
      pool.Readies (PageTable.createEntry ⟨5⟩ true (table, pool)).state.2 entry.frame := by
  obtain ⟨⟨table, pool⟩, htable⟩ := Option.isSome_iff_exists.mp
    (by decide +kernel : (table? 0 writtenAndFreed).isSome = true)
  have hwritten : (table? 0 writtenAndFreed).map (fun t => t.2.memory.byte? 0) =
      some (some 7) := by
    decide +kernel
  have hcreated : (table? 0 writtenAndFreed).map (fun t =>
      ((PageTable.createEntry ⟨5⟩ true t).result.toOption.map PageEntry.frame)) =
        some (some ⟨0⟩) := by
    decide +kernel
  rw [htable] at hwritten hcreated
  have hframe : (PageTable.createEntry ⟨5⟩ true (table, pool)).result.toOption.map PageEntry.frame =
      some ⟨0⟩ :=
    Option.some.inj hcreated
  cases hresult : (PageTable.createEntry ⟨5⟩ true (table, pool)).result with
  | error reason =>
      rw [hresult] at hframe
      cases hframe
  | ok entry =>
      rw [hresult] at hframe
      exact ⟨reachable_writtenAndFreed, table, pool, entry, htable, Option.some.inj hwritten,
        hresult, Option.some.inj hframe,
        (((hidesOldBytes_of_reachable reachable_writtenAndFreed).1 0 table pool htable).created
          ⟨5⟩ true entry hresult).2⟩

end Session

end DemandPaging
