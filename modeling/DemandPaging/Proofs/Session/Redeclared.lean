import DemandPaging.Proofs.Session.Watch

namespace DemandPaging

/-- A cache with a mapping through which a page of a region is written without a fault. -/
def Machine.LetsWrite (machine : Machine) (region : Region) : Prop :=
  ∃ mapping, some mapping ∈ machine.slots ∧ mapping.entry.isDirty = true ∧
    region.Covers mapping.page.pageNumber.number.toNat

def Declaration.request (declaration : Declaration) (slot : SlotId) : Request :=
  .space slot (.define declaration.address declaration.length declaration.permissions)

namespace AddressSpace

variable {space : AddressSpace} {region : Region}

theorem decides_withRegion (space : AddressSpace) {page : Nat} (h : region.Covers page) :
    Region.Decides (space.withRegion region).regions page region :=
  ⟨space.regions, [], rfl, h, nofun⟩

theorem denied_withRegion (hwritable : region.permissions.writable = false) (pool : FramePool)
    {word : UInt64} (h : region.Covers (word.toNat / Layout.pageSize)) :
    Context.Denied (some (space.withRegion region, pool)) .write word :=
  .inr (.inr (.inr (.inr ⟨_, pool, rfl, .inr ⟨region, space.decides_withRegion h,
    .inl ⟨rfl, hwritable⟩⟩⟩)))

end AddressSpace

namespace Session

variable {n : Nat} {s : Session n} {slot : SlotId} {space : AddressSpace} {pool : FramePool}

theorem answer_of_declared {declaration : Declaration} (hspace : space? slot s = some (space, pool))
    {region : Region} (hregion : declaration.region = .ok region) :
    ∃ events, answer (declaration.request slot) s =
      ⟨.ok .done, putSpace slot (space.withRegion region, pool) s, events⟩ := by
  obtain ⟨events, hdefine⟩ := AddressSpace.defineRegion_of_declared space hregion
  have hfound := onSpace_of_some hspace (Action.first (AddressSpace.defineRegion
    declaration.address declaration.length declaration.permissions))
  rw [Action.run_first, hdefine] at hfound
  rw [Declaration.request, answer, answerSpace, Action.bind_of_ok hfound]
  exact ⟨_, rfl⟩

theorem exists_region_of_done {declaration : Declaration}
    (hspace : space? slot s = some (space, pool))
    (hdone : (answer (declaration.request slot) s).result = .ok .done) :
    ∃ region, declaration.region = .ok region := by
  rcases declaration.region_cases with hregion | hrefused
  · exact hregion
  · have hfound := onSpace_of_some hspace (Action.first (AddressSpace.defineRegion
      declaration.address declaration.length declaration.permissions))
    rw [Action.run_first, AddressSpace.defineRegion_of_refused space hrefused] at hfound
    rw [Declaration.request, answer, answerSpace, Action.bind_of_error hfound] at hdone
    cases hdone

end Session

namespace Watched

open Session (answer)

/-- What a declaration of a region that may not be written does. Faults are denied as the region
says. A page of the region can be written without a fault if it could be before, and only then: it
is mapped with an entry that may be written, and unless there were other declarations the region
that decided before may be written too. Once the cache was emptied that is over. -/
structure Redeclares (w next : Watched) (slot : SlotId) (space : AddressSpace) (region : Region) :
    Prop where
  declared : next.session.spaces.get? slot = some (space.withRegion region)
  decides : ∀ page, region.Covers page →
    Region.Decides (space.withRegion region).regions page region
  denied : ∀ pool word, region.Covers (word.toNat / Layout.pageSize) →
    Context.Denied (some (space.withRegion region, pool)) .write word
  letsWrite_iff : next.session.machine.LetsWrite region ↔ w.session.machine.LetsWrite region
  leftOver : ∀ mapping, some mapping ∈ next.session.machine.slots →
    space.Mirrors mapping ∧ (slot ∉ w.declared → space.Permits mapping)
  emptied : ∀ moves, next.FollowsAll moves → (next.run moves).current = some slot →
    (next.run moves).activated = true → slot ∉ (next.run moves).declared →
      ∃ last, (next.run moves).session.spaces.get? slot = some last ∧
        ∀ mapping, some mapping ∈ (next.run moves).session.machine.slots → last.Permits mapping

/-- A page that may not be written any more, as a region was declared over it, is still written
without a fault if the cache has a mapping for it that says so, and only then. -/
theorem redeclares_of_declared {w : Watched} (h : Disciplined w) {slot : SlotId}
    (hcurrent : w.current = some slot) (hactivated : w.activated = true)
    {declaration : Declaration} (hwritable : declaration.permissions.writable = false)
    (hdone : (answer (declaration.request slot) w.session).result = .ok .done) :
    ∃ space region, w.session.spaces.get? slot = some space ∧ declaration.region = .ok region ∧
      Redeclares w (w.after (.request (declaration.request slot))) slot space region := by
  obtain ⟨space, hspace, hcoherent⟩ := h.sound.coherent slot hcurrent
  obtain ⟨pool, hfound⟩ := h.sound.reachable.balances.exists_space? hspace
  obtain ⟨region, hregion⟩ := Session.exists_region_of_done hfound hdone
  obtain ⟨events, hanswer⟩ := Session.answer_of_declared hfound hregion
  obtain ⟨_, -, -, hmade⟩ := Region.of_declare_eq_ok hregion
  have hreadOnly : region.permissions.writable = false := by
    rw [hmade]
    exact hwritable
  have hnext : Disciplined (w.after (.request (declaration.request slot))) :=
    h.step _ ⟨trivial, trivial⟩
  have hsession : (w.after (.request (declaration.request slot))).session =
      Session.putSpace slot (space.withRegion region, pool) w.session :=
    congrArg Outcome.state hanswer
  have hmachine : (w.after (.request (declaration.request slot))).session.machine =
      w.session.machine := by
    rw [hsession]
    rfl
  refine ⟨space, region, hspace, hregion, ?_, fun page => space.decides_withRegion,
    fun pool word => AddressSpace.denied_withRegion hreadOnly pool, by rw [hmachine], ?_, ?_⟩
  · rw [hsession]
    exact (w.session.spaces.get?_put slot slot _).trans (if_pos rfl)
  · intro mapping hmem
    rw [hmachine] at hmem
    exact ⟨(hcoherent hactivated).mirrors mapping hmem,
      fun hdeclared => (hcoherent hactivated).permits hdeclared mapping hmem⟩
  · intro moves hfollows hlast hactive hdeclared
    obtain ⟨last, hspace, hcoherent⟩ := (hnext.run hfollows).sound.coherent slot hlast
    exact ⟨last, hspace, fun mapping => (hcoherent hactive).permits hdeclared mapping⟩

def forReading : Declaration :=
  ⟨0x1000, 0x1000, .read⟩

theorem result_forReading :
    (answer (forReading.request 0) writtenTo.session).result = .ok .done := by
  obtain ⟨⟨space, pool⟩, hspace⟩ := Option.isSome_iff_exists.mp
    (by decide +kernel : (Session.space? 0 writtenTo.session).isSome = true)
  have hregion : forReading.region = .ok ⟨⟨0x1000⟩, 0x1000, .read, .read⟩ := by decide +kernel
  obtain ⟨events, hanswer⟩ := Session.answer_of_declared hspace hregion
  rw [hanswer]

theorem redeclares_of_writtenTo :
    ∃ space region, writtenTo.session.spaces.get? 0 = some space ∧
      forReading.region = .ok region ∧
      Redeclares writtenTo (writtenTo.after (.request (forReading.request 0))) 0 space region :=
  redeclares_of_declared disciplined_writtenTo (by decide +kernel) (by decide +kernel) rfl
    result_forReading

/-- A page is declared again for reading alone, and yet the cache lets it be written. -/
theorem letsWrite_of_writtenTo :
    Disciplined writtenTo ∧ writtenTo.current = some 0 ∧ writtenTo.activated = true ∧
      forReading.permissions.writable = false ∧
      (answer (forReading.request 0) writtenTo.session).result = .ok .done ∧
      ∃ region, forReading.region = .ok region ∧
        (answer (forReading.request 0) writtenTo.session).state.machine.LetsWrite region := by
  have hcached : ((answer (forReading.request 0) writtenTo.session).state.machine.slots[0].map
      fun mapping => (mapping.entry.isDirty, mapping.page)) = some (true, ⟨0x1000⟩) := by
    decide +kernel
  obtain ⟨mapping, hmapping, hbits⟩ := Option.map_eq_some_iff.mp hcached
  obtain ⟨hdirty, hpage⟩ := Prod.mk.inj hbits
  refine ⟨disciplined_writtenTo, by decide +kernel, by decide +kernel, rfl, result_forReading,
    ⟨⟨0x1000⟩, 0x1000, .read, .read⟩, by decide +kernel, mapping, ?_, hdirty, ?_⟩
  · exact hmapping ▸ Vector.getElem_mem _
  · rw [hpage]
    exact ⟨by decide, by decide⟩

end Watched

end DemandPaging
