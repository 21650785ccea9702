import Mathlib.Algebra.Order.Floor.Div
import DemandPaging.Proofs.Declarations
import DemandPaging.Proofs.InRange

namespace DemandPaging

theorem Region.exists_pages (region : Region) :
    ∃ stop, region.base.pageNumber.add (region.size / Layout.pageBytes) = .ok stop ∧
      region.pages = .halfOpen region.base.pageNumber stop := by
  obtain ⟨stop, hstop⟩ := region.exists_stop
  refine ⟨stop, hstop, ?_⟩
  rw [PageNumber.add, Checked.add] at hstop
  split at hstop
  · obtain rfl := Except.ok.inj hstop
    rfl
  · contradiction

namespace Declaration

def InReach (declaration : Declaration) : Prop :=
  Region.InReach declaration.address declaration.length

def firstPage (declaration : Declaration) : Nat :=
  declaration.address.toNat / Layout.pageSize

def stopPage (declaration : Declaration) : Nat :=
  (declaration.address.toNat + declaration.length.toNat) ⌈/⌉ Layout.pageSize

def Holds (declaration : Declaration) (byte : Nat) : Prop :=
  declaration.address.toNat ≤ byte ∧ byte < declaration.address.toNat + declaration.length.toNat

/-- The region from the start of the first page of a declaration up to the start of the stop page,
with the permissions that were asked for. -/
structure Spans (declaration : Declaration) (region : Region) : Prop where
  base : region.base.word.toNat = declaration.firstPage * Layout.pageSize
  finish : region.base.word.toNat + region.size.toNat = declaration.stopPage * Layout.pageSize
  permissions : region.permissions = declaration.permissions
  savedPermissions : region.savedPermissions = declaration.permissions

/-- What it means that a region holds the pages of a declaration and no others. The number of its
last page is found without overflow. -/
structure Covers (declaration : Declaration) (region : Region) : Prop where
  pages : ∃ stop, region.base.pageNumber.add (region.size / Layout.pageBytes) = .ok stop ∧
    region.pages = .halfOpen region.base.pageNumber stop
  contains_iff : ∀ page : PageNumber, region.contains page = true ↔
    declaration.firstPage ≤ page.number.toNat ∧ page.number.toNat < declaration.stopPage
  holds_iff : 0 < declaration.length.toNat → ∀ page : PageNumber,
    region.contains page = true ↔
      ∃ byte, declaration.Holds byte ∧ byte / Layout.pageSize = page.number.toNat

variable {declaration : Declaration} {region : Region}

theorem stopPage_eq (declaration : Declaration) :
    declaration.stopPage =
      (declaration.address.toNat + declaration.length.toNat + 0xfff) / Layout.pageSize :=
  Nat.ceilDiv_eq_add_pred_div ..

theorem Spans.unique (h : declaration.Spans region) {other : Region}
    (hother : declaration.Spans other) : other = region := by
  rcases region with ⟨base, size, permissions, savedPermissions⟩
  rcases other with ⟨start, length, given, saved⟩
  obtain ⟨hbase, hfinish, hpermissions, hsaved⟩ := h
  obtain ⟨hstart, hstop, hgiven, hkept⟩ := hother
  have hsame : start.word.toNat = base.word.toNat := hstart.trans hbase.symm
  have hsize : start.word.toNat + length.toNat = base.word.toNat + size.toNat :=
    hstop.trans hfinish.symm
  rw [Region.mk.injEq]
  refine ⟨VirtualAddress.word_injective (UInt64.toNat_inj.mp hsame), ?_,
    hgiven.trans hpermissions.symm, hkept.trans hsaved.symm⟩
  rw [← UInt64.toNat_inj]
  omega

theorem Spans.contains_iff (h : declaration.Spans region) (page : PageNumber) :
    region.contains page = true ↔
      declaration.firstPage ≤ page.number.toNat ∧ page.number.toNat < declaration.stopPage := by
  have hbase := h.base
  have hfinish := h.finish
  rw [Region.contains_iff, Region.Covers]
  simp only [Layout.pageSize] at *
  omega

theorem exists_holds_iff (hlength : 0 < declaration.length.toNat) (page : Nat) :
    (∃ byte, declaration.Holds byte ∧ byte / Layout.pageSize = page) ↔
      declaration.firstPage ≤ page ∧ page < declaration.stopPage := by
  simp only [stopPage_eq, firstPage, Holds, Layout.pageSize]
  constructor
  · rintro ⟨byte, hbyte, rfl⟩
    omega
  · intro hpage
    refine ⟨max declaration.address.toNat (page * 4096), ?_⟩
    omega

theorem Spans.covers (h : declaration.Spans region) : declaration.Covers region where
  pages := region.exists_pages
  contains_iff := h.contains_iff
  holds_iff hlength page := (h.contains_iff page).trans (exists_holds_iff hlength _).symm

theorem exists_spans (h : declaration.InReach) :
    ∃ region, declaration.region = .ok region ∧ declaration.Spans region := by
  obtain ⟨base, size, hbase, hfinish, hdeclare⟩ :=
    Region.declare_of_inReach h declaration.permissions
  rw [← stopPage_eq] at hfinish
  exact ⟨_, hdeclare, hbase, hfinish, rfl, rfl⟩

end Declaration

/-- What is declared is exact. If all bytes that are asked for are user addresses, the region from
the first page that they touch to the last one is added to the regions of the space, and nothing
else of the space changes. Otherwise the declaration is refused and the space stays as it is. -/
theorem declared_exactly (declaration : Declaration) (space : AddressSpace) :
    (declaration.InReach ∧ ∃ region events,
        declaration.region = .ok region ∧ declaration.Covers region ∧
        (∀ other, declaration.Spans other ↔ other = region) ∧
        AddressSpace.defineRegion declaration.address declaration.length declaration.permissions
          space = ⟨.ok (), space.withRegion region, events⟩) ∨
      ¬ declaration.InReach ∧
        declaration.region = .error (.refused .invalidArgument) ∧
        AddressSpace.defineRegion declaration.address declaration.length declaration.permissions
          space = ⟨.error (.refused .invalidArgument), space, []⟩ := by
  by_cases h : declaration.InReach
  · obtain ⟨region, hregion, hspans⟩ := Declaration.exists_spans h
    obtain ⟨events, hdefine⟩ := AddressSpace.defineRegion_of_declared space hregion
    refine .inl ⟨h, region, events, hregion, hspans.covers, fun other => ?_, hdefine⟩
    exact ⟨hspans.unique, fun heq => heq ▸ hspans⟩
  · have hrefused : declaration.region = .error (.refused .invalidArgument) :=
      Region.declare_of_outOfReach h declaration.permissions
    exact .inr ⟨h, hrefused, AddressSpace.defineRegion_of_refused space hrefused⟩

end DemandPaging
