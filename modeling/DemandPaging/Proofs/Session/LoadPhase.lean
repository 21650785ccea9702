import DemandPaging.Proofs.Session.Chronicle

namespace DemandPaging

/-- The permissions that a declaration gives its region, which is one of those that the load phase
has widened if it was declared before. -/
def History.permissionsAt (history : History) (i : Nat) (declaration : Declaration) :
    Permissions :=
  if i < history.loadedFrom.getD 0 then .readWrite else declaration.permissions

namespace AddressSpace

/-- The regions of a space are as its history says. Declarations are counted from the first one, and
each has made a region that keeps its base, its size and the permissions to be restored. -/
structure Follows (space : AddressSpace) (history : History) : Prop where
  length : space.regions.length = history.declarations.length
  regions : ∀ (i : Nat) (declaration : Declaration), history.declarations[i]? = some declaration →
    ∃ declared, declaration.region = .ok declared ∧ space.regions[i]? = some
      ⟨declared.base, declared.size, history.permissionsAt i declaration, declaration.permissions⟩
  loading : space.loading = history.loadedFrom.isSome
  loadedFrom_le : history.loadedFrom.getD 0 ≤ history.declarations.length

variable {space : AddressSpace} {history : History}

theorem follows_of_same {other : AddressSpace} {later : History} (h : space.Follows history)
    (hregions : other.regions = space.regions) (hloading : other.loading = space.loading)
    (hdeclarations : later.declarations = history.declarations)
    (hloadedFrom : later.loadedFrom = history.loadedFrom) : other.Follows later where
  length := by rw [hregions, hdeclarations, h.length]
  regions i declaration hdeclaration := by
    rw [History.permissionsAt, hregions, hloadedFrom]
    exact h.regions i declaration (hdeclarations ▸ hdeclaration)
  loading := by rw [hloading, hloadedFrom, h.loading]
  loadedFrom_le := by rw [hloadedFrom, hdeclarations]; exact h.loadedFrom_le

theorem Follows.loadedFrom_eq_none (h : space.Follows history) (hloading : space.loading = false) :
    history.loadedFrom = none :=
  Option.isNone_iff_eq_none.mp (Option.isSome_eq_false_iff.mp (h.loading.symm.trans hloading))

theorem Follows.permissionsAt_eq (h : space.Follows history) (hloading : space.loading = false)
    (i : Nat) (declaration : Declaration) :
    history.permissionsAt i declaration = declaration.permissions := by
  rw [History.permissionsAt, h.loadedFrom_eq_none hloading]
  exact if_neg (Nat.not_lt_zero i)

theorem follows_withRegion (h : space.Follows history) {declaration : Declaration} {region : Region}
    (hregion : declaration.region = .ok region) :
    (space.withRegion region).Follows (history.declared declaration) where
  length := by
    simp only [withRegion, History.declared, List.length_append, h.length, List.length_singleton]
  regions i other hother := by
    have hother : (history.declarations ++ [declaration])[i]? = some other := hother
    rcases Nat.lt_or_ge i history.declarations.length with hold | hnew
    · rw [List.getElem?_append_left hold] at hother
      obtain ⟨declared, hdeclared, hfound⟩ := h.regions i other hother
      refine ⟨declared, hdeclared, ?_⟩
      rw [withRegion, List.getElem?_append_left (h.length ▸ hold)]
      exact hfound
    · rw [List.getElem?_append_right hnew, List.getElem?_singleton] at hother
      obtain ⟨hlast, rfl⟩ := (Option.ite_none_right_eq_some.mp hother).imp_right Option.some.inj
      obtain ⟨-, -, -, hmade⟩ := Region.of_declare_eq_ok hregion
      have hpermissions :
          (history.declared declaration).permissionsAt i declaration = declaration.permissions :=
        if_neg (Nat.not_lt_of_le (Nat.le_trans h.loadedFrom_le hnew))
      refine ⟨region, hregion, ?_⟩
      rw [hpermissions, ← hmade, withRegion, List.getElem?_append_right (h.length ▸ hnew), h.length,
        hlast]
      rfl
  loading := h.loading
  loadedFrom_le := by
    refine Nat.le_trans h.loadedFrom_le ?_
    simp [History.declared]

theorem follows_opened (h : space.Follows history) (hloading : space.loading = false) :
    space.opened.Follows history.opened where
  length := by
    rw [opened, List.length_map]
    exact h.length
  regions i declaration hdeclaration := by
    obtain ⟨declared, hdeclared, hfound⟩ := h.regions i declaration hdeclaration
    have hwidened : history.opened.permissionsAt i declaration = .readWrite :=
      if_pos (List.getElem?_eq_some_iff.mp hdeclaration).1
    refine ⟨declared, hdeclared, ?_⟩
    rw [opened, List.getElem?_map, hfound, hwidened, h.permissionsAt_eq hloading]
    rfl
  loading := rfl
  loadedFrom_le := Nat.le_refl _

theorem follows_closed (h : space.Follows history) : space.closed.Follows history.closed where
  length := by
    rw [closed, List.length_map]
    exact h.length
  regions i declaration hdeclaration := by
    obtain ⟨declared, hdeclared, hfound⟩ := h.regions i declaration hdeclaration
    have hrestored : history.closed.permissionsAt i declaration = declaration.permissions :=
      if_neg (Nat.not_lt_zero i)
    refine ⟨declared, hdeclared, ?_⟩
    rw [closed, List.getElem?_map, hfound, hrestored]
    rfl
  loading := rfl
  loadedFrom_le := Nat.zero_le _

theorem kept_follows : Chronicle.Kept Follows where
  blank _ := ⟨rfl, nofun, rfl, Nat.le_refl 0⟩
  fork h hfork := follows_of_same h hfork.regions hfork.loading rfl rfl
  withRegion h hregion := follows_withRegion h hregion
  opened h hloading := follows_opened h hloading
  closed h _ := follows_closed h
  touched h _ htouches := follows_of_same h htouches.regions htouches.loading rfl rfl
  withBlock _ h _ := follows_of_same h rfl rfl rfl rfl

end AddressSpace

namespace Session

variable {n : Nat} {s : Session n} {slot : SlotId} {space : AddressSpace} {held : Holdings}

theorem result_beginLoad (h : Balances s [] held) (hspace : s.spaces.get? slot = some space) :
    (answer (.space slot .beginLoad) s).result =
      if space.loading then .error (.refused .invalidArgument) else .ok .done := by
  obtain ⟨pool, hthere⟩ := h.exists_space? hspace
  rw [answer, answerSpace, Action.result_bind, onSpace_of_some hthere, Action.run_first]
  cases hloading : space.loading with
  | false => rw [AddressSpace.beginLoad_of_not_loading hloading]; rfl
  | true => rw [AddressSpace.beginLoad_of_loading hloading]; rfl

theorem result_endLoad (hspace : s.spaces.get? slot = some space) {id : Nat}
    {processor : Processor n} (hprocessor : s.processors[id]? = some processor)
    (hsame : processor.cache = processor.interrupts) :
    (answer (.space slot (.endLoad id)) s).result =
      if space.loading then .ok .done else .error (.refused .invalidArgument) := by
  have hanswer : answer (.space slot (.endLoad id)) s =
      (onLoad slot (AddressSpace.endLoad processor) >>= fun _ => pure Answer.done) s := by
    rw [answer, answerSpace, named_bind, hprocessor]
  rw [hanswer, Action.result_bind, onLoad_of_some hspace]
  cases hloading : space.loading with
  | false => rw [AddressSpace.endLoad_of_not_loading processor hloading]; rfl
  | true =>
      obtain ⟨events, hend⟩ := AddressSpace.endLoad_of_loading hsame hloading s.machines
      rw [hend]
      rfl

end Session

def Deed.shapes : Deed → Bool
  | .declare _ | .beginLoad | .endLoad => true
  | _ => false

namespace Chronicle

open Session (answer)

variable {n : Nat} {c : Chronicle n} {slot : SlotId} {space : AddressSpace}

theorem state_of_refused_shape (h : Recorded c) {request : Request} {deed : Deed}
    (hdeed : request.deed? = some (slot, deed)) (hshapes : deed.shapes = true)
    (hmasks : request.MasksOwn c.session) {reason : Stop}
    (hresult : (answer request c.session).result = .error reason) :
    (answer request c.session).state = c.session := by
  cases h.effect hmasks slot with
  | elsewhere hnone hsame => exact absurd hdeed (hnone deed)
  | declined other hother reason hdeclined hreason hdone =>
      obtain ⟨-, rfl⟩ := Prod.mk.inj (Option.some.inj (hother.symm.trans hdeed))
      cases other with
      | declare declaration => exact hdone
      | beginLoad => exact hdone
      | endLoad => exact hdone
      | _ => contradiction
  | did other hother a hok hdid =>
      rw [hok] at hresult
      contradiction

/-- In every state of every run a space has the regions that were declared for it and for the spaces
that it was copied from, in their order, and they keep the declared permissions. A load phase gives
permission to read and to write, and no other, to exactly those regions that it has found. It begins
exactly if there is none and ends exactly if there is one, and what is refused changes nothing in
the session. -/
theorem regions_of_recorded (h : Recorded c) (hspace : c.session.spaces.get? slot = some space) :
    (∃ history, c.histories slot = some history ∧ space.Follows history) ∧
      (answer (.space slot .beginLoad) c.session).result =
        (if space.loading then .error (.refused .invalidArgument) else .ok .done) ∧
      (∀ id processor, c.session.processors[id]? = some processor →
        processor.cache = processor.interrupts →
        (answer (.space slot (.endLoad id)) c.session).result =
          if space.loading then .ok .done else .error (.refused .invalidArgument)) ∧
      ∀ request deed reason, request.deed? = some (slot, deed) → deed.shapes = true →
        request.MasksOwn c.session → (answer request c.session).result = .error reason →
        (answer request c.session).state = c.session :=
  ⟨h.keeps AddressSpace.kept_follows slot space hspace,
    Session.result_beginLoad h.reachable.balances hspace,
    fun _ _ hprocessor hsame => Session.result_endLoad hspace hprocessor hsame,
    fun _ _ _ hdeed hshapes hmasks hresult =>
      state_of_refused_shape h hdeed hshapes hmasks hresult⟩

/-- A space that is loaded, with one region that was there before and one declared since. -/
def declaredInPhase : Chronicle 1 :=
  (ofLimits #[2] #[.sole]).run
    [.space 0 (.new 0), .space 0 (.define 0x1000 0x1800 .read), .space 0 .beginLoad,
      .space 0 (.define 0x4000 0x1000 .execute)]

theorem recorded_declaredInPhase : Recorded declaredInPhase :=
  (recorded_ofLimits #[2] #[.sole]).run
    (⟨⟨trivial, trivial⟩, ⟨trivial, trivial⟩, ⟨trivial, trivial⟩, ⟨trivial, trivial⟩,
      trivial⟩ :
      (ofLimits #[2] #[.sole]).AllowsAll
        [.space 0 (.new 0), .space 0 (.define 0x1000 0x1800 .read), .space 0 .beginLoad,
          .space 0 (.define 0x4000 0x1000 .execute)])

theorem regions_of_declaredInPhase :
    ∃ (space : AddressSpace) (history : History),
      declaredInPhase.session.spaces.get? 0 = some space ∧
      declaredInPhase.histories 0 = some history ∧
      history.declarations = [⟨0x1000, 0x1800, .read⟩, ⟨0x4000, 0x1000, .execute⟩] ∧
      history.loadedFrom = some 1 ∧
      space.regions =
        [⟨⟨0x1000⟩, 0x2000, .readWrite, .read⟩, ⟨⟨0x4000⟩, 0x1000, .execute, .execute⟩] ∧
      space.Follows history ∧
      (answer (.space 0 .beginLoad) declaredInPhase.session).result =
        .error (.refused .invalidArgument) ∧
      (answer (.space 0 .beginLoad) declaredInPhase.session).state = declaredInPhase.session := by
  have hloaded : (declaredInPhase.session.spaces.get? 0).map (fun space => (space.loading,
      space.regions)) =
      some (true, [⟨⟨0x1000⟩, 0x2000, .readWrite, .read⟩,
        ⟨⟨0x4000⟩, 0x1000, .execute, .execute⟩]) := by
    decide +kernel
  obtain ⟨space, hspace, hfound⟩ := Option.map_eq_some_iff.mp hloaded
  obtain ⟨hloading, hregions⟩ := Prod.mk.inj hfound
  obtain ⟨⟨history, hhistory, hfollows⟩, hbegin, -, hrefused⟩ :=
    regions_of_recorded recorded_declaredInPhase hspace
  have hnoted : (declaredInPhase.histories 0).map (fun history => (history.declarations,
      history.loadedFrom)) =
      some ([⟨0x1000, 0x1800, .read⟩, ⟨0x4000, 0x1000, .execute⟩], some 1) := by
    decide +kernel
  rw [hhistory] at hnoted
  obtain ⟨hdeclarations, hloadedFrom⟩ := Prod.mk.inj (Option.some.inj hnoted)
  rw [hloading, if_pos rfl] at hbegin
  exact ⟨space, history, hspace, hhistory, hdeclarations, hloadedFrom, hregions, hfollows, hbegin,
    hrefused (.space 0 .beginLoad) .beginLoad _ rfl rfl trivial hbegin⟩

end Chronicle

end DemandPaging
