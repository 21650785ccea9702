import Mathlib.Data.Fintype.Prod
import DemandPaging.Proofs.Conservation
import DemandPaging.Proofs.Translation

namespace DemandPaging

/-- The indices and addresses that an allocation uses are in range. -/
structure FramePool.InRange (pool : FramePool) : Prop where
  free : ∀ frame ∈ pool.free, frame.frameIndex < pool.inUse.size
  fresh : pool.fresh < pool.inUse.size → pool.fresh * Layout.pageSize < UInt64.size
  releases_le : pool.releases ≤ pool.allocations

/-- Every place of the directory that is present names a block, and a place that is absent can name
the next one. -/
structure PageTable.InRange (table : PageTable) : Prop where
  served : ∀ (first : FirstIndex) (index : UInt16), table.position? first = some index →
    index.toNat < table.blocks.size
  next : ∀ first : FirstIndex, table.position? first = none →
    (UInt16.ofNat table.blocks.size).toNat = table.blocks.size
  mappedCount_le : table.mappedCount ≤ Layout.pageCount

/-- All that is done with a space and its pool is in range. While the space is copied this holds
after each of its pages, and an unfinished copy is taken down without fail. -/
structure AddressSpace.InRange (space : AddressSpace) (pool : FramePool) : Prop where
  ofTable : space.table.InRange
  ofPool : pool.InRange
  pages : ∀ region ∈ space.regions, ∃ stop,
    region.base.pageNumber.add (region.size / Layout.pageBytes) = .ok stop
  translations : ∀ (address : VirtualAddress) (entry : PageEntry),
    space.table.find? address.pageNumber = some entry →
    ∃ target, entry.frame.add address.pageOffset = .ok target ∧
      space.physical? address = some target ∧ target.word.toNat < pool.memory.size
  copies : ∀ items, items <+: space.table.mappedPages → ∀ t,
    t = (PageTable.copyEntries items (.empty space.table.pool, pool)).state →
    t.1.InRange ∧ t.2.InRange ∧ (PageTable.destroy t).result = .ok ()

section Parts

variable {pool : FramePool} {owned : List PhysicalAddress} {table : PageTable}

theorem FramePool.HandedOut.inRange (h : pool.HandedOut owned) : pool.InRange where
  free frame hframe :=
    Nat.lt_of_lt_of_le (h.index_of_mem (List.mem_append_left owned hframe)).1 h.fresh_le
  fresh := h.address_lt
  releases_le := by
    rw [h.allocations]
    exact Nat.le_add_right _ _

theorem PageTable.WellFormed.mappedCount_le (h : table.WellFormed) :
    table.mappedCount ≤ Layout.pageCount := by
  have hcard : Fintype.card (FirstIndex × SecondIndex) = Layout.pageCount := by
    simp only [Fintype.card_prod, Fintype.card_fin]
    rfl
  rw [← length_mappedPages h, ← List.length_map fun item => item.1.place, ← hcard]
  exact (nodup_places table).length_le_card

theorem PageTable.WellFormed.inRange (h : table.WellFormed) : table.InRange where
  served := h.served
  next _ habsent := h.toNat_size_blocks habsent
  mappedCount_le := h.mappedCount_le

theorem Region.exists_stop (region : Region) :
    ∃ stop, region.base.pageNumber.add (region.size / Layout.pageBytes) = .ok stop := by
  have hfirst := region.base.toNat_pageNumber_lt
  have hpages : (region.size / Layout.pageBytes).toNat = region.size.toNat / 4096 :=
    UInt64.toNat_div ..
  have hsize := region.size.toNat_lt
  have hsum : region.base.pageNumber.number.toNat + (region.size / Layout.pageBytes).toNat <
      UInt64.size := by
    simp only [Layout.pageCount, UInt64.size] at *
    omega
  rw [PageNumber.add, Checked.add, if_pos hsum]
  exact ⟨_, rfl⟩

namespace PageTable

theorem Copyable.first {items done : List (PageNumber × PageEntry)}
    (h : Copyable items owned table) (hdone : done <+: items) : Copyable done owned table where
  places := h.places.sublist (hdone.sublist.map _)
  unmapped item hitem := h.unmapped item (hdone.subset hitem)
  sources item hitem := h.sources item (hdone.subset hitem)

theorem backed_copyEntries {items : List (PageNumber × PageEntry)} (h : Backed owned (table, pool))
    (hitems : Copyable items owned table) :
    Backed owned (copyEntries items (table, pool)).state := by
  rcases Nat.lt_or_ge pool.limit ((table.frames ++ owned).length + items.length) with hshort | hroom
  · obtain ⟨done, after, events, hcopies, -, htakes, -⟩ :=
      copyEntries_of_short h.wellFormed h.handedOut hitems hshort
    rw [hcopies]
    exact ⟨htakes.wellFormed, htakes.handedOut⟩
  · obtain ⟨after, events, hcopies, htakes⟩ :=
      copyEntries_of_room h.wellFormed h.handedOut hitems hroom
    rw [hcopies]
    exact ⟨htakes.wellFormed, htakes.handedOut⟩

end PageTable

end Parts

namespace AddressSpace

variable {space : AddressSpace} {pool : FramePool} {owned : List PhysicalAddress}

theorem exists_translation (h : PageTable.Backed owned (space.table, pool))
    {address : VirtualAddress} {entry : PageEntry}
    (hentry : space.table.find? address.pageNumber = some entry) :
    ∃ target, entry.frame.add address.pageOffset = .ok target ∧
      space.physical? address = some target ∧ target.word.toNat < pool.memory.size := by
  have hphysical : space.physical? address = some ⟨entry.frame.word + address.pageOffset⟩ := by
    rw [physical?, hentry]
    rfl
  obtain ⟨found, hfound, hword⟩ := physical?_eq_some hphysical
  obtain rfl := Option.some.inj (hentry.symm.trans hfound)
  have hframe : entry.frame ∈ pool.free ++ (space.table.frames ++ owned) :=
    List.mem_append_right _ (List.mem_append_left _ (PageTable.frame_mem_frames hentry))
  refine ⟨_, ?_, hphysical, ?_⟩
  · rw [PhysicalAddress.add, Checked.add_eq_ok_iff.mpr]
    · rfl
    · rw [hword, address.toNat_pageOffset]
      rfl
  · obtain ⟨another, hanother, hindex, -⟩ := frameIndex_of_physical? hphysical
    obtain rfl := Option.some.inj (hentry.symm.trans hanother)
    exact Memory.word_lt_size (hindex.trans_lt (h.handedOut.holds hframe))

theorem inRange_of_backed (h : PageTable.Backed owned (space.table, pool)) :
    space.InRange pool where
  ofTable := h.wellFormed.inRange
  ofPool := h.handedOut.inRange
  pages region _ := region.exists_stop
  translations _ _ hentry := exists_translation h hentry
  copies := by
    rintro items hitems t rfl
    have hcopyable := (PageTable.copyable_mappedPages h.wellFormed
      (List.subset_append_left space.table.frames owned)).first hitems
    have hbacked := PageTable.backed_copyEntries
      (PageTable.backed_empty space.table.pool h.handedOut) hcopyable
    obtain ⟨events, hdestroy⟩ := PageTable.destroy_of_handedOut hbacked.handedOut
    exact ⟨hbacked.wellFormed.inRange, hbacked.handedOut.inRange, congrArg Outcome.result hdestroy⟩

end AddressSpace

end DemandPaging
