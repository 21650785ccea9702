import DemandPaging.AddressSpace
import DemandPaging.Proofs.PageTable.Copy

namespace DemandPaging

namespace VirtualAddress

theorem toNat_pageBase (address : VirtualAddress) :
    address.pageBase.word.toNat = address.word.toNat / Layout.pageSize * Layout.pageSize := by
  have hmask : (~~~0xfff : UInt32).toNat =
      (2 ^ 32 - 1) &&& (Layout.pageMask : UInt64).toNat := by decide
  have hlow : address.word32.toNat &&& (2 ^ 32 - 1) = address.word32.toNat :=
    Nat.and_two_pow_sub_one_of_lt_two_pow address.word32.toNat_lt
  rw [word, pageBase, UInt32.toNat_toUInt64, UInt32.toNat_and, hmask, ← Nat.and_assoc, hlow, word,
    ← UInt32.toNat_toUInt64, ← UInt64.toNat_and, Layout.toNat_and_pageMask]

theorem toNat_pageNumber (address : VirtualAddress) :
    address.pageNumber.number.toNat = address.word.toNat / Layout.pageSize :=
  UInt64.toNat_div ..

theorem start_pageNumber (address : VirtualAddress) :
    address.pageNumber.start = .ok address.pageBase := by
  have hbase : Checked.mul address.pageNumber.number Layout.pageBytes =
      .ok address.pageBase.word := by
    rw [Checked.mul_eq_ok_iff, toNat_pageNumber, toNat_pageBase]
    rfl
  rw [PageNumber.start, hbase]
  exact ofWord_word address.pageBase

theorem pageOffset_pageBase (address : VirtualAddress) : address.pageBase.pageOffset = 0 := by
  have hmask : (0xfff : UInt64).toNat = 2 ^ 12 - 1 := by rfl
  rw [pageOffset, ← UInt64.toNat_inj, UInt64.toNat_and, hmask, Nat.and_two_pow_sub_one_eq_mod,
    toNat_pageBase]
  exact Nat.mul_mod_left _ _

end VirtualAddress

theorem Mapping.new_pageBase (address : VirtualAddress) (entry : PageEntry) :
    Mapping.new address.pageBase entry = .ok ⟨address.pageBase, entry⟩ := by
  rw [Mapping.new, address.pageOffset_pageBase]
  rfl

namespace AddressSpace

theorem create_eq {σ : Type} (pool : PoolId) (s : σ) :
    create pool s =
      ⟨.ok ⟨[], .empty pool, ⟨Layout.userStackTop.toUInt32⟩, false⟩, s, [.logged .created]⟩ := rfl

section Resolve

variable {space : AddressSpace} {pool : FramePool} {access : Access} {address : VirtualAddress}
  {region : Region}

theorem denied_or_granted (space : AddressSpace) (access : Access) (page : PageNumber) :
    (∀ region, Region.deciding? space.regions page = some region →
        access.allowedBy region.permissions = false) ∨
      ∃ region, Region.deciding? space.regions page = some region ∧
        access.allowedBy region.permissions = true := by
  cases hregion : Region.deciding? space.regions page with
  | none =>
      left
      rintro region hsome
      contradiction
  | some region =>
      cases hallowed : access.allowedBy region.permissions with
      | false =>
          left
          rintro other hsome
          obtain rfl := Option.some.inj hsome
          exact hallowed
      | true => exact .inr ⟨region, rfl, hallowed⟩

theorem resolve_of_denied (pool : FramePool)
    (hdenied : ∀ region, Region.deciding? space.regions address.pageNumber = some region →
      access.allowedBy region.permissions = false) :
    ∃ events, resolve access address.pageNumber (space, pool) =
      ⟨.error (.refused .protectionFault), (space, pool), events⟩ := by
  by_cases hempty : space.regions = []
  · refine ⟨[.logged (.faulted (.noRegions address.pageBase))], ?_⟩
    simp [resolve, hempty, address.start_pageNumber, FaultReport.deny, Outcome.after]
  · cases hregion : Region.deciding? space.regions address.pageNumber with
    | none =>
        refine ⟨[.logged (.faulted (.outsideRegions address.pageBase))], ?_⟩
        simp [resolve, hempty, hregion, address.start_pageNumber, FaultReport.deny,
          Outcome.after]
    | some region =>
        have hallowed := hdenied region hregion
        refine ⟨[.logged (.faulted (.notPermitted address.pageBase access region.permissions))], ?_⟩
        simp [resolve, hempty, hregion, hallowed, address.start_pageNumber, FaultReport.deny,
          Outcome.after]

theorem regions_ne_nil (hregion : Region.deciding? space.regions address.pageNumber = some region) :
    space.regions ≠ [] := by
  rintro hempty
  rw [hempty] at hregion
  contradiction

variable (hregion : Region.deciding? space.regions address.pageNumber = some region)
  (hallowed : access.allowedBy region.permissions = true)

include hregion hallowed

theorem resolve_of_mapped {entry : PageEntry}
    (hentry : space.table.find? address.pageNumber = some entry) :
    resolve access address.pageNumber (space, pool) =
      ⟨.ok ⟨address.pageBase, entry.marked (entry.isDirty && region.permissions.writable)⟩,
        (space, pool), []⟩ := by
  have hregions := regions_ne_nil hregion
  simp [resolve, hregions, hregion, hallowed, hentry, address.start_pageNumber,
    PageEntry.withDirty_eq, Mapping.new_pageBase, Outcome.after]

theorem resolve_of_full {owned : List PhysicalAddress} (h : space.table.WellFormed)
    (howned : pool.HandedOut owned) (hunmapped : space.table.contains address.pageNumber = false)
    (hfull : owned.length = pool.limit) :
    ∃ events, resolve access address.pageNumber (space, pool) =
      ⟨.error (.refused .outOfMemory),
        ({ space with table := space.table.withBlock address.pageNumber.firstIndex }, pool),
        events⟩ := by
  have hnone := PageTable.contains_eq_false_iff.mp hunmapped
  have hcreate := PageTable.createEntry_of_full h region.permissions.writable howned hunmapped hfull
  refine ⟨[.allocated space.table.pool none], ?_⟩
  have hregions := regions_ne_nil hregion
  simp [resolve, hregions, hregion, hallowed, hnone, onTable, hcreate, Outcome.after]

theorem resolve_of_some {owned : List PhysicalAddress} (h : space.table.WellFormed)
    (howned : pool.HandedOut owned) (hunmapped : space.table.contains address.pageNumber = false)
    {frame : PhysicalAddress} {next : FramePool} (hallocate : pool.allocate = (some frame, next)) :
    ∃ events, resolve access address.pageNumber (space, pool) =
      ⟨.ok ⟨address.pageBase,
          (PageEntry.fresh frame region.permissions.writable).marked region.permissions.writable⟩,
        ({ space with
            table := space.table.mapping address.pageNumber
              (.fresh frame region.permissions.writable) },
          next.withContents frame Page.zero), events⟩ := by
  have hnone := PageTable.contains_eq_false_iff.mp hunmapped
  have hcreate :=
    PageTable.createEntry_of_some h region.permissions.writable howned hunmapped hallocate
  have hregions := regions_ne_nil hregion
  refine ⟨[.allocated space.table.pool (some frame), .zeroing space.table.pool frame,
    .logged (.mapped address.pageNumber frame)], ?_⟩
  simp [resolve, hregions, hregion, hallowed, hnone, onTable, hcreate,
    address.start_pageNumber, PageEntry.withDirty_eq, Mapping.new_pageBase, Outcome.after]

theorem resolve_of_room {owned : List PhysicalAddress} (h : space.table.WellFormed)
    (howned : pool.HandedOut owned) (hunmapped : space.table.contains address.pageNumber = false)
    (hroom : owned.length < pool.limit) :
    ∃ frame next events, resolve access address.pageNumber (space, pool) =
        ⟨.ok ⟨address.pageBase,
            (PageEntry.fresh frame region.permissions.writable).marked region.permissions.writable⟩,
          ({ space with
              table := space.table.mapping address.pageNumber
                (.fresh frame region.permissions.writable) },
            next.withContents frame Page.zero), events⟩ ∧
      next.HandedOut (frame :: owned) ∧ pool.Allocates next := by
  obtain ⟨frame, next, hallocate, hnext⟩ := howned.allocate_of_room hroom
  obtain ⟨events, hresolve⟩ := resolve_of_some hregion hallowed h howned hunmapped hallocate
  exact ⟨frame, next, events, hresolve, hnext⟩

end Resolve

section Copy

variable {space : AddressSpace} {pool next : FramePool} {events : List Event}

theorem copy_of_ok {target : PageTable}
    (hcopy : space.table.copy pool = ⟨.ok target, next, events⟩) :
    space.copy pool = ⟨.ok { space with table := target }, next,
      events ++ [.logged (.copied space.regions.length target.mappedCount)]⟩ := by
  rw [copy, Action.bind_of_ok hcopy]
  rfl

theorem copy_of_error {reason : Stop}
    (hcopy : space.table.copy pool = ⟨.error reason, next, events⟩) :
    space.copy pool = ⟨.error reason, next, events⟩ := by
  rw [copy, Action.bind_of_error hcopy]

end Copy

end AddressSpace

end DemandPaging
