import DemandPaging.Proofs.Session.Reachable

namespace DemandPaging

namespace PageTable

/-- The list and the count of mapped pages agree with look-ups. -/
structure AgreesWithLookups (table : PageTable) : Prop where
  served : ∀ (first : FirstIndex) (index : UInt16), table.position? first = some index →
    index.toNat < table.blocks.size
  increasing : table.mappedPages.Pairwise fun a b => a.1.number.toNat < b.1.number.toNat
  below : ∀ item ∈ table.mappedPages, item.1.number.toNat < Layout.pageCount
  listed_iff : ∀ (page : PageNumber) (entry : PageEntry), (page, entry) ∈ table.mappedPages ↔
    page.number.toNat < Layout.pageCount ∧ table.find? page = some entry
  scanned : table.mappedPages = table.scan
  counted : table.mappedCount = table.mappedPages.length
  contained : table.mappedCount =
    (List.range Layout.pageCount).countP fun number => table.contains ⟨.ofNat number⟩

theorem WellFormed.agreesWithLookups {table : PageTable} (h : table.WellFormed) :
    table.AgreesWithLookups where
  served := h.served
  increasing := table.pairwise_mappedPages
  below _ hitem := (mem_mappedPages_iff.mp hitem).1
  listed_iff _ _ := mem_mappedPages_iff
  scanned := table.mappedPages_eq_scan
  counted := (length_mappedPages h).symm
  contained := (length_mappedPages h).symm.trans table.length_mappedPages_eq_countP

end PageTable

namespace Session

variable {n : Nat}

/-- In every reachable session the mapped pages of every table, be it in a slot of its own or that
of a space, are listed in the order of their numbers, each of them once and with the entry that a
look-up finds, and they are counted right. -/
theorem agreesWithLookups_of_reachable {s : Session n} {held : Holdings} (h : Reachable s held)
    {table : PageTable} (htable : table ∈ s.liveTables) : table.AgreesWithLookups :=
  (h.balances.wellFormed table htable).agreesWithLookups

/-- A session with a table whose blocks were made from the highest to the lowest. -/
def blocksReversed : Session 0 :=
  (run (ofLimits #[8] #[])
    [.table 0 (.new 0), .table 0 (.create ⟨0xfffff⟩ true), .table 0 (.create ⟨0x400⟩ false),
      .table 0 (.create ⟨3⟩ true)]).2

theorem reachable_blocksReversed : Reachable blocksReversed [] :=
  (reachable_ofLimits #[8] #[]).run
    (⟨trivial, trivial, trivial, trivial, trivial⟩ : HonestRun (ofLimits #[8] #[]) []
      [.table 0 (.new 0), .table 0 (.create ⟨0xfffff⟩ true), .table 0 (.create ⟨0x400⟩ false),
        .table 0 (.create ⟨3⟩ true)])

theorem agreesWithLookups_of_blocksReversed :
    ∃ table : PageTable, blocksReversed.tables.get? 0 = some table ∧
      table.position? 0 = some 2 ∧ table.mappedPages.length = 3 ∧
      (∃ entry, (⟨3⟩, entry) ∈ table.mappedPages ∧ entry.isDirty = true) ∧
      table.AgreesWithLookups ∧
      ∀ other ∈ (answer (.table 0 (.copy 1)) blocksReversed).state.liveTables,
        other.AgreesWithLookups := by
  have hseen : (blocksReversed.tables.get? 0).map (fun table =>
      (table.position? 0, table.mappedCount, (table.find? ⟨3⟩).map PageEntry.isDirty)) =
      some (some 2, 3, some true) := by
    decide +kernel
  obtain ⟨table, htable, hfound⟩ := Option.map_eq_some_iff.mp hseen
  simp only [Prod.mk.injEq, Option.map_eq_some_iff] at hfound
  obtain ⟨hposition, hcount, entry, hentry, hdirty⟩ := hfound
  have hagrees := agreesWithLookups_of_reachable reachable_blocksReversed
    (mem_liveTables_of_table htable)
  refine ⟨table, htable, hposition, hagrees.counted.symm.trans hcount, ⟨entry, ?_, hdirty⟩, hagrees,
    fun other hother => agreesWithLookups_of_reachable
      (reachable_blocksReversed.step (.table 0 (.copy 1)) trivial) hother⟩
  exact (hagrees.listed_iff ⟨3⟩ entry).mpr ⟨by decide, hentry⟩

end Session

end DemandPaging
