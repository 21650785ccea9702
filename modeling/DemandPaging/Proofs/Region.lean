import DemandPaging.Region

namespace DemandPaging

namespace Region

def Covers (region : Region) (page : Nat) : Prop :=
  region.base.word.toNat / Layout.pageSize ≤ page ∧
    page < region.base.word.toNat / Layout.pageSize + region.size.toNat / Layout.pageSize

/-- A region decides about a page if it covers the page and no region declared after it does. -/
def Decides (regions : List Region) (page : Nat) (region : Region) : Prop :=
  ∃ older newer, regions = older ++ region :: newer ∧ region.Covers page ∧
    ∀ other ∈ newer, ¬ other.Covers page

theorem contains_iff (region : Region) (page : PageNumber) :
    region.contains page = true ↔ region.Covers page.number.toNat := by
  have hbase := region.base.toNat_word_lt
  have hsize := region.size.toNat_lt
  have hfirst : (region.base.word / Layout.pageBytes).toNat = region.base.word.toNat / 4096 :=
    UInt64.toNat_div ..
  have hpages : (region.size / Layout.pageBytes).toNat = region.size.toNat / 4096 :=
    UInt64.toNat_div ..
  have hstop : (region.base.word / Layout.pageBytes + region.size / Layout.pageBytes).toNat =
      region.base.word.toNat / 4096 + region.size.toNat / 4096 := by
    rw [UInt64.toNat_add, hfirst, hpages]
    exact Nat.mod_eq_of_lt (by omega)
  simp only [contains, pages, PageRange.contains, VirtualAddress.pageNumber, Bool.and_eq_true,
    decide_eq_true_eq, UInt64.le_iff_toNat_le, UInt64.lt_iff_toNat_lt, hfirst, hstop, Covers]

theorem deciding?_eq_some_iff {regions : List Region} {page : PageNumber} {region : Region} :
    deciding? regions page = some region ↔ Decides regions page.number.toNat region := by
  rw [deciding?, List.find?_eq_some_iff_append, contains_iff]
  constructor
  · rintro ⟨hcovers, newer, older, hregions, hnewer⟩
    refine ⟨older.reverse, newer.reverse, ?_, hcovers, ?_⟩
    · rw [← List.reverse_reverse regions, hregions]
      simp
    · intro other hother
      have := hnewer other (List.mem_reverse.mp hother)
      rw [← contains_iff]
      simpa using this
  · rintro ⟨older, newer, rfl, hcovers, hnewer⟩
    refine ⟨hcovers, newer.reverse, older.reverse, by simp, ?_⟩
    intro other hother
    have := hnewer other (List.mem_reverse.mp hother)
    rw [← contains_iff] at this
    simpa using this

theorem deciding?_eq_none_iff {regions : List Region} {page : PageNumber} :
    deciding? regions page = none ↔ ∀ region, ¬ Decides regions page.number.toNat region := by
  simp only [← deciding?_eq_some_iff, Option.eq_none_iff_forall_ne_some, ne_eq]

theorem of_declare_eq_ok {address length : UInt64} {permissions : Permissions} {region : Region}
    (h : declare address length permissions = .ok region) :
    ∃ finish, Checked.sub finish (address &&& Layout.pageMask) = .ok region.size ∧
      region.base.word = address &&& Layout.pageMask ∧
      region = ⟨region.base, region.size, permissions, permissions⟩ := by
  simp only [declare] at h
  split at h
  · contradiction
  split at h
  · rename_i reach _
    obtain ⟨size, hsize, h⟩ := Stop.bind_eq_ok_iff.mp h
    have hmade : ∀ {result : Except Stop Region}, result = .ok region →
        result = (do
          let base ← VirtualAddress.ofWord (address &&& Layout.pageMask)
          return ⟨base, size, permissions, permissions⟩) →
          Checked.sub (reach &&& Layout.pageMask) (address &&& Layout.pageMask) =
              .ok region.size ∧
            region.base.word = address &&& Layout.pageMask ∧
            region = ⟨region.base, region.size, permissions, permissions⟩ := by
      rintro _ hregion rfl
      obtain ⟨base, hbase, hregion⟩ := Stop.bind_eq_ok_iff.mp hregion
      obtain rfl := Except.ok.inj hregion
      exact ⟨Stop.lift_eq_ok_iff.mp hsize,
        VirtualAddress.ofWord_eq_ok_iff.mp (Stop.lift_eq_ok_iff.mp hbase), rfl⟩
    split at h
    · obtain ⟨last, -, h⟩ := Stop.bind_eq_ok_iff.mp h
      split at h
      · cases h
      · exact ⟨_, hmade h rfl⟩
    · exact ⟨_, hmade h rfl⟩
  · cases h

theorem exists_finish_of_declare {address length : UInt64} {permissions : Permissions}
    {region : Region} (h : declare address length permissions = .ok region) :
    ∃ finish, Checked.add region.base.word region.size = .ok finish := by
  obtain ⟨finish, hsize, hbase, -⟩ := of_declare_eq_ok h
  refine ⟨finish, Checked.add_eq_ok_iff.mpr ?_⟩
  rw [hbase]
  exact (Checked.sub_eq_ok_iff.mp hsize).symm

theorem exists_size {address length reach : UInt64}
    (h : (Checked.add? address length).bind (Checked.add? · 0xfff) = some reach) :
    ∃ size, Checked.sub (reach &&& Layout.pageMask) (address &&& Layout.pageMask) = .ok size := by
  obtain ⟨middle, hmiddle, hreach⟩ := Option.bind_eq_some_iff.mp h
  rw [Checked.add?_eq_some_iff] at hmiddle hreach
  apply Checked.exists_sub
  rw [Layout.toNat_and_pageMask, Layout.toNat_and_pageMask]
  exact Nat.mul_le_mul_right _ (Nat.div_le_div_right (by omega))

def InReach (address length : UInt64) : Prop :=
  address.toNat < 0x100000000 ∧ address.toNat + length.toNat ≤ 0x100000000

theorem isUserAddress_base_iff (address : UInt64) :
    Layout.isUserAddress (address &&& Layout.pageMask) = true ↔ address.toNat < 0x100000000 := by
  rw [Layout.isUserAddress_iff, Layout.toNat_and_pageMask]
  simp only [Layout.pageSize]
  omega

theorem reach_eq_some_iff {address length reach : UInt64} :
    (Checked.add? address length).bind (Checked.add? · 0xfff) = some reach ↔
      address.toNat + length.toNat + 0xfff = reach.toNat := by
  have hmask : (0xfff : UInt64).toNat = 0xfff := rfl
  rw [Option.bind_eq_some_iff]
  simp only [Checked.add?_eq_some_iff, hmask]
  constructor
  · rintro ⟨middle, hmiddle, hreach⟩
    omega
  · intro hreach
    have hlt : address.toNat + length.toNat < 2 ^ 64 := by
      have := reach.toNat_lt
      omega
    refine ⟨.ofNat (address.toNat + length.toNat), ?_, ?_⟩
    · rw [UInt64.toNat_ofNat_of_lt' hlt]
    · rw [UInt64.toNat_ofNat_of_lt' hlt, hreach]

theorem declare_of_inReach {address length : UInt64} (h : InReach address length)
    (permissions : Permissions) :
    ∃ (base : VirtualAddress) (size : UInt64),
      base.word.toNat = address.toNat / Layout.pageSize * Layout.pageSize ∧
      base.word.toNat + size.toNat =
        (address.toNat + length.toNat + 0xfff) / Layout.pageSize * Layout.pageSize ∧
      declare address length permissions = .ok ⟨base, size, permissions, permissions⟩ := by
  obtain ⟨hstart, hend⟩ := h
  have huser := (isUserAddress_base_iff address).mpr hstart
  obtain ⟨base, hbase⟩ :
      ∃ base, VirtualAddress.ofWord (address &&& Layout.pageMask) = .ok base := by
    simp [VirtualAddress.ofWord, VirtualAddress.ofWord?, huser]
  have hword : base.word.toNat = address.toNat / Layout.pageSize * Layout.pageSize := by
    rw [VirtualAddress.ofWord_eq_ok_iff.mp hbase, Layout.toNat_and_pageMask]
  let reach : UInt64 := .ofNat (address.toNat + length.toNat + 0xfff)
  have hnat : reach.toNat = address.toNat + length.toNat + 0xfff :=
    UInt64.toNat_ofNat_of_lt' (Nat.lt_of_le_of_lt (Nat.add_le_add_right hend _) (by decide))
  have hreach := reach_eq_some_iff.mpr hnat.symm
  obtain ⟨size, hsize⟩ := exists_size hreach
  have hfinish : (reach &&& Layout.pageMask).toNat = base.word.toNat + size.toNat := by
    rw [Checked.sub_eq_ok_iff.mp hsize, VirtualAddress.ofWord_eq_ok_iff.mp hbase]
  refine ⟨base, size, hword, ?_, ?_⟩
  · rw [← hfinish, Layout.toNat_and_pageMask, hnat]
  · by_cases hempty : size = 0
    · simp [declare, huser, hreach, hsize, hempty, hbase, liftM, monadLift, MonadLift.monadLift,
        bind, Except.bind, pure, Except.pure]
    · have hpositive : 0 < size.toNat :=
        Nat.pos_of_ne_zero fun hzero => hempty (UInt64.toNat_inj.mp hzero)
      have hone : (1 : UInt64).toNat = 1 := rfl
      obtain ⟨last, hlast⟩ := Checked.exists_sub (a := reach &&& Layout.pageMask) (b := 1)
        (by omega)
      have hlastUser : Layout.isUserAddress last = true := by
        rw [Layout.isUserAddress_iff]
        have hnext := Checked.sub_eq_ok_iff.mp hlast
        rw [Layout.toNat_and_pageMask, hnat, hone] at hnext
        simp only [Layout.pageSize] at hnext
        omega
      simp [declare, huser, hreach, hsize, hempty, hlast, hlastUser, hbase, liftM, monadLift,
        MonadLift.monadLift, bind, Except.bind, pure, Except.pure]

theorem declare_of_outOfReach {address length : UInt64} (h : ¬ InReach address length)
    (permissions : Permissions) :
    declare address length permissions = .error (.refused .invalidArgument) := by
  by_cases hstart : address.toNat < 0x100000000
  · have huser := (isUserAddress_base_iff address).mpr hstart
    have hend : 0x100000000 < address.toNat + length.toNat :=
      Nat.lt_of_not_le fun hle => h ⟨hstart, hle⟩
    cases hreach : (Checked.add? address length).bind (Checked.add? · 0xfff) with
    | none => simp [declare, huser, hreach, throw, throwThe, MonadExceptOf.throw]
    | some reach =>
        have hnat := reach_eq_some_iff.mp hreach
        obtain ⟨size, hsize⟩ := exists_size hreach
        have hsum := Checked.sub_eq_ok_iff.mp hsize
        have hone : (1 : UInt64).toNat = 1 := rfl
        rw [Layout.toNat_and_pageMask, Layout.toNat_and_pageMask] at hsum
        simp only [Layout.pageSize] at hsum
        have hempty : size ≠ 0 := by
          rintro rfl
          have hzero : (0 : UInt64).toNat = 0 := rfl
          omega
        obtain ⟨last, hlast⟩ := Checked.exists_sub (a := reach &&& Layout.pageMask) (b := 1) (by
          rw [Layout.toNat_and_pageMask]
          simp only [Layout.pageSize]
          omega)
        have hlastUser : Layout.isUserAddress last = false := by
          rw [← Bool.not_eq_true, Layout.isUserAddress_iff]
          have hnext := Checked.sub_eq_ok_iff.mp hlast
          rw [Layout.toNat_and_pageMask, hone] at hnext
          simp only [Layout.pageSize] at hnext
          omega
        simp [declare, huser, hreach, hsize, hempty, hlast, hlastUser, liftM, monadLift,
          MonadLift.monadLift, bind, Except.bind, throw, throwThe, MonadExceptOf.throw]
  · have huser : Layout.isUserAddress (address &&& Layout.pageMask) = false := by
      rw [← Bool.not_eq_true, isUserAddress_base_iff]
      exact hstart
    simp [declare, huser, throw, throwThe, MonadExceptOf.throw, bind, Except.bind]

theorem declare_cases (address length : UInt64) (permissions : Permissions) :
    (∃ region, declare address length permissions = .ok region) ∨
      declare address length permissions = .error (.refused .invalidArgument) := by
  by_cases h : InReach address length
  · obtain ⟨base, size, -, -, hdeclare⟩ := declare_of_inReach h permissions
    exact .inl ⟨_, hdeclare⟩
  · exact .inr (declare_of_outOfReach h permissions)

end Region

end DemandPaging
