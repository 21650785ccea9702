import DemandPaging.Proofs.Overlap
import DemandPaging.Proofs.Session.Twins

namespace DemandPaging

def Declaration.use (declaration : Declaration) : Use :=
  .define declaration.address declaration.length declaration.permissions

namespace AddressSpace

def declared (space : AddressSpace) : List Region × VirtualAddress × Bool :=
  (space.regions, space.stackBase, space.loading)

variable {one other space another : AddressSpace}

theorem DeclaresAlike.of_declared (h : DeclaresAlike one other)
    (hspace : space.declared = one.declared) (hanother : another.declared = other.declared) :
    DeclaresAlike space another := by
  simp only [declared, Prod.mk.injEq] at hspace hanother
  obtain ⟨hregions, hstack, hloading⟩ := hspace
  obtain ⟨hothers, hstackToo, hloadingToo⟩ := hanother
  refine ⟨?_, ?_, ?_⟩
  · rw [hregions, hothers]
    exact h.regions
  · rw [hstack, hstackToo, h.stackBase]
  · rw [hloading, hloadingToo, h.loading]

/-- What a use makes of a space, up to its table, where there are certain processors. -/
def revised {n : Nat} (processors : Array (Processor n)) (space : AddressSpace) :
    Use → AddressSpace
  | .define address length permissions => (defineRegion address length permissions space).state
  | .stack => (defineStack space).state
  | .beginLoad => (beginLoad space).state
  | .endLoad id => if processors[id]?.isSome && space.loading then space.closed else space
  | .fault _ _ _ | .rawFault _ _ _ | .store _ _ => space

theorem state_defineRegion (address length : UInt64) (permissions : Permissions)
    (space : AddressSpace) :
    (defineRegion address length permissions space).state =
      space.declaring [⟨address, length, permissions⟩] := by
  rcases Declaration.region_cases ⟨address, length, permissions⟩ with ⟨region, hregion⟩ | hrefused
  · obtain ⟨events, hdefine⟩ := defineRegion_of_declared space hregion
    rw [hdefine, declaring, withRegion, List.filterMap_cons_some (b := region)]
    · rfl
    · rw [Declaration.added?, hregion]
      rfl
  · rw [defineRegion_of_refused space hrefused, declaring, List.filterMap_cons_none]
    · rw [List.filterMap_nil, List.append_nil]
    · rw [Declaration.added?, hrefused]
      rfl

theorem declared_declaring (h : space.declared = another.declared)
    (declarations : List Declaration) :
    (space.declaring declarations).declared = (another.declaring declarations).declared := by
  simp only [declared, Prod.mk.injEq] at h
  simp only [declaring, declared, h]

theorem declaring_declaring (space : AddressSpace) (declarations others : List Declaration) :
    (space.declaring declarations).declaring others =
      space.declaring (declarations ++ others) := by
  simp only [declaring, List.append_assoc, List.filterMap_append]

theorem DeclaresAlike.defineRegion (h : DeclaresAlike one other) (address length : UInt64)
    (permissions : Permissions) :
    DeclaresAlike (defineRegion address length permissions one).state
      (defineRegion address length permissions other).state := by
  rw [state_defineRegion, state_defineRegion]
  exact h.declaring (.refl _)

theorem state_defineStack (space : AddressSpace) :
    (defineStack space).state =
      match Checked.sub space.stackBase.word Layout.userStackSize with
      | .ok bottom => (defineRegion bottom Layout.userStackSize .all space).state
      | .error _ => space := by
  rw [defineStack, Action.bind_of_ok (Action.run_current space), Outcome.after_nil]
  cases Checked.sub space.stackBase.word Layout.userStackSize with
  | error assertion => rfl
  | ok bottom => exact Action.state_bind_pure _ _ space

theorem DeclaresAlike.defineStack (h : DeclaresAlike one other) :
    DeclaresAlike (defineStack one).state (defineStack other).state := by
  rw [state_defineStack, state_defineStack, h.stackBase]
  cases Checked.sub one.stackBase.word Layout.userStackSize with
  | error assertion => exact h
  | ok bottom => exact h.defineRegion bottom Layout.userStackSize .all

theorem DeclaresAlike.beginLoad (h : DeclaresAlike one other) :
    DeclaresAlike (beginLoad one).state (beginLoad other).state := by
  cases hloading : one.loading with
  | false =>
      rw [beginLoad_of_not_loading hloading, beginLoad_of_not_loading (h.loading.trans hloading)]
      exact h.opened
  | true =>
      rw [beginLoad_of_loading hloading, beginLoad_of_loading (h.loading.trans hloading)]
      exact h

theorem DeclaresAlike.revised {n : Nat} (h : DeclaresAlike one other)
    (processors : Array (Processor n)) (use : Use) :
    DeclaresAlike (one.revised processors use) (other.revised processors use) := by
  cases use with
  | define address length permissions => exact h.defineRegion address length permissions
  | stack => exact h.defineStack
  | beginLoad => exact h.beginLoad
  | endLoad id =>
      simp only [AddressSpace.revised, h.loading]
      split
      · exact h.closed
      · exact h
  | fault id access word => exact h
  | rawFault id code word => exact h
  | store word byte => exact h

theorem leaves_resolve (access : Access) (page : PageNumber) :
    Action.Leaves (fun t : AddressSpace × FramePool => t.1.declared) (resolve access page) := by
  rw [resolve]
  refine Action.leaves_bind (fun _ => rfl) fun t => ?_
  refine Action.leaves_ite (Action.leaves_bind (Action.leaves_lift _) fun _ _ => rfl) ?_
  cases Region.deciding? t.1.regions page with
  | none => exact Action.leaves_bind (Action.leaves_lift _) fun _ _ => rfl
  | some region =>
      refine Action.leaves_ite (Action.leaves_bind (Action.leaves_lift _) fun _ _ => rfl) ?_
      have hmapping : ∀ entry : PageEntry,
          Action.Leaves (fun t : AddressSpace × FramePool => t.1.declared) (do
            let start ← page.start
            let entry ← entry.withDirty (entry.isDirty && region.permissions.writable)
            Mapping.new start entry) := fun entry =>
        Action.leaves_bind (Action.leaves_lift _) fun _ =>
          Action.leaves_bind (Action.leaves_lift _) fun _ => Action.leaves_lift _
      cases t.1.table.find? page with
      | some entry => exact Action.leaves_bind (Action.leaves_pure entry) hmapping
      | none => exact Action.leaves_bind (fun _ => rfl) hmapping

end AddressSpace

namespace Context

variable {n : Nat} (processor : Processor n)

def declared (p : Context × Machines n) : Option (List Region × VirtualAddress × Bool) :=
  p.1.map fun t => t.1.declared

theorem leaves_handleFault (access : Access) (word : UInt64) :
    Action.Leaves declared (handleFault processor access word) := by
  rintro ⟨context, machines⟩
  rw [handleFault]
  split
  · rfl
  split
  · rfl
  cases context with
  | none => rfl
  | some t =>
      cases VirtualAddress.ofWord? word with
      | none => rfl
      | some address =>
          have hresolve := AddressSpace.leaves_resolve access address.pageNumber t
          refine congrArg some (Eq.trans ?_ hresolve)
          simp only [serve, Action.state_bind, Action.run_first]
          cases (AddressSpace.resolve access address.pageNumber t).result <;> rfl

theorem leaves_handleRawFault (code : UInt32) (word : UInt64) :
    Action.Leaves declared (handleRawFault processor code word) := by
  rw [handleRawFault]
  cases Access.ofCode code with
  | ok access => exact leaves_handleFault processor access word
  | error reason => exact fun _ => rfl

end Context

namespace Session

variable {n : Nat} {s t : Session n} {slot other : SlotId}

def declaredIn (slot : SlotId) (s : Session n) :
    Array (Processor n) × Option (List Region × VirtualAddress × Bool) :=
  (s.processors, (s.spaces.get? slot).map AddressSpace.declared)

theorem leaves_declaredIn_onProcess {x : Action (Context × Machines n) Unit}
    (hx : Action.Leaves Context.declared x) :
    Action.Leaves (declaredIn slot) (onProcess slot x) := by
  intro s
  have hdeclared := hx (space? slot s, s.machines)
  rw [onProcess, Action.run_on]
  cases hstate : (x (space? slot s, s.machines)).state.1 with
  | none => rfl
  | some t =>
      simp only [Context.declared, hstate] at hdeclared
      obtain ⟨before, hbefore, hsame⟩ := Option.map_eq_some_iff.mp hdeclared.symm
      have hput : ({ putSpace slot t s with machines := (x (space? slot s, s.machines)).state.2 } :
          Session n).spaces.get? slot = some t.1 := get?_putSpace t s
      rw [declaredIn, declaredIn, hput, (space?_eq_some_iff.mp hbefore).1, Option.map_some,
        Option.map_some, hsame]
      rfl

theorem leaves_declaredIn_fault (id : Nat) {x : Processor n → Action (Context × Machines n) Unit}
    (hx : ∀ processor, Action.Leaves Context.declared (x processor)) :
    Action.Leaves (declaredIn slot) (do
      let processor ← named fun s : Session n => s.processors[id]?
      onProcess slot (x processor)
      return Answer.done) :=
  leaves_named_bind fun processor =>
    Action.leaves_return _ (leaves_declaredIn_onProcess (hx processor))

theorem leaves_declaredIn_store (word : UInt64) (bytes : List UInt8) :
    Action.Leaves (declaredIn slot)
      (answer (.space slot (.poke word bytes)) : Action (Session n) Answer) := by
  apply leaves_named_bind
  intro space
  refine Action.leaves_bind (Action.leaves_bind (Action.leaves_lift _) fun address => ?_) fun _ =>
    Action.leaves_return _ (Action.leaves_onSome _ fun _ _ => rfl)
  cases space.physical? address with
  | none => exact Action.leaves_stop _
  | some target => exact Action.leaves_pure _

section Use

variable {space : AddressSpace} {pool : FramePool}

theorem declaredIn_onSpace (hspace : space? slot s = some (space, pool)) {α : Type}
    (x : Action AddressSpace α) (f : α → Answer) :
    declaredIn slot ((onSpace slot (Action.first x) >>= fun a => pure (f a)) s).state =
      (s.processors, some (x space).state.declared) := by
  rw [Action.state_bind_pure, onSpace_of_some hspace, declaredIn, get?_putSpace]
  rfl

theorem declaredIn_endLoad (hslot : s.spaces.get? slot = some space) (id : Nat) :
    declaredIn slot (answer (.space slot (.endLoad id)) s).state =
      (s.processors, some (space.revised s.processors (.endLoad id)).declared) := by
  have hbefore : declaredIn slot s = (s.processors, some space.declared) := by
    rw [declaredIn, hslot, Option.map_some]
  rw [answer, answerSpace, named_bind, AddressSpace.revised]
  cases s.processors[id]? with
  | none => exact hbefore
  | some processor =>
      have hput : ∀ t : AddressSpace × Machines n,
          declaredIn slot { s with spaces := s.spaces.put slot t.1, machines := t.2 } =
            (s.processors, some t.1.declared) := by
        intro t
        rw [declaredIn, Slots.get?_put, if_pos rfl, Option.map_some]
      change declaredIn slot ((onLoad slot (AddressSpace.endLoad processor) >>= fun _ =>
        pure Answer.done) s).state = _
      rw [Action.state_bind_pure, onLoad_of_some hslot]
      refine (hput _).trans ?_
      cases hloading : space.loading with
      | false =>
          rw [AddressSpace.endLoad_of_not_loading processor hloading]
          rfl
      | true =>
          rw [AddressSpace.endLoad_eq processor hloading, Action.state_bind, Action.run_second]
          cases (processor.invalidate s.machines).result <;> rfl

theorem declaredIn_answer (hspace : space? slot s = some (space, pool)) (use : Use) :
    declaredIn slot (answer (use.on slot) s).state =
      (s.processors, some (space.revised s.processors use).declared) := by
  have hslot := (space?_eq_some_iff.mp hspace).1
  have hbefore : declaredIn slot s = (s.processors, some space.declared) := by
    rw [declaredIn, hslot, Option.map_some]
  cases use with
  | define address length permissions => exact declaredIn_onSpace hspace _ fun _ => .done
  | stack => exact declaredIn_onSpace hspace _ fun top : VirtualAddress => .word top.word
  | beginLoad => exact declaredIn_onSpace hspace _ fun _ => .done
  | endLoad id => exact declaredIn_endLoad hslot id
  | fault id access word =>
      exact (leaves_declaredIn_fault id (Context.leaves_handleFault · access word) s).trans hbefore
  | rawFault id code word =>
      exact (leaves_declaredIn_fault id (Context.leaves_handleRawFault · code word) s).trans hbefore
  | store word byte => exact (leaves_declaredIn_store word [byte] s).trans hbefore

end Use

/-- Two sessions with the same processors, and with spaces in two slots that declare alike. -/
structure DeclareAlike (slot other : SlotId) (s t : Session n) : Prop where
  processors : t.processors = s.processors
  spaces : ∃ one another, s.spaces.get? slot = some one ∧ t.spaces.get? other = some another ∧
    one.DeclaresAlike another

def after (slot : SlotId) (s : Session n) (uses : List Use) : Session n :=
  (run s (uses.map (Use.on slot))).2

section Runs

variable {held rest : Holdings}

theorem Reachable.after (h : Reachable s held) (slot : SlotId) (uses : List Use) :
    ∃ last, Reachable (after slot s uses) last := by
  induction uses generalizing s held with
  | nil => exact ⟨held, h⟩
  | cons use uses ih => exact ih (h.step _ (use.honest_on slot s held))

theorem exists_revised (h : Reachable s held) {space : AddressSpace}
    (hspace : s.spaces.get? slot = some space) (use : Use) :
    (answer (use.on slot) s).state.processors = s.processors ∧
      ∃ next, (answer (use.on slot) s).state.spaces.get? slot = some next ∧
        next.declared = (space.revised s.processors use).declared := by
  obtain ⟨pool, hpool⟩ := h.balances.exists_space? hspace
  obtain ⟨hprocessors, hdeclared⟩ := Prod.mk.inj (declaredIn_answer hpool use)
  exact ⟨hprocessors, Option.map_eq_some_iff.mp hdeclared⟩

theorem DeclareAlike.step (hs : Reachable s held) (ht : Reachable t rest)
    (h : DeclareAlike slot other s t) (use : Use) :
    DeclareAlike slot other (answer (use.on slot) s).state (answer (use.on other) t).state := by
  obtain ⟨one, another, hone, hanother, halike⟩ := h.spaces
  obtain ⟨hprocessors, next, hnext, hdeclared⟩ := exists_revised hs hone use
  obtain ⟨hprocessorsToo, last, hlast, hdeclaredToo⟩ := exists_revised ht hanother use
  refine ⟨?_, next, last, hnext, hlast, ?_⟩
  · rw [hprocessors, hprocessorsToo, h.processors]
  · have hrevised := halike.revised s.processors use
    rw [h.processors] at hdeclaredToo
    exact hrevised.of_declared hdeclared hdeclaredToo

theorem DeclareAlike.after (hs : Reachable s held) (ht : Reachable t rest)
    (h : DeclareAlike slot other s t) (uses : List Use) :
    DeclareAlike slot other (after slot s uses) (after other t uses) := by
  induction uses generalizing s t held rest with
  | nil => exact h
  | cons use uses ih =>
      exact ih (hs.step _ (use.honest_on slot s held)) (ht.step _ (use.honest_on other t rest))
        (h.step hs ht use)

theorem exists_declaring (h : Reachable s held) {space : AddressSpace}
    (hspace : s.spaces.get? slot = some space) (declarations : List Declaration) :
    (Session.after slot s (declarations.map Declaration.use)).processors = s.processors ∧
      ∃ next, (Session.after slot s (declarations.map Declaration.use)).spaces.get? slot =
          some next ∧ next.declared = (space.declaring declarations).declared := by
  induction declarations generalizing s held space with
  | nil =>
      refine ⟨rfl, space, hspace, ?_⟩
      rw [AddressSpace.declaring, List.filterMap_nil, List.append_nil]
  | cons declaration declarations ih =>
      obtain ⟨hprocessors, next, hnext, hdeclared⟩ := exists_revised h hspace declaration.use
      obtain ⟨hlater, last, hlast, hfinal⟩ :=
        ih (h.step _ (declaration.use.honest_on slot s held)) hnext
      refine ⟨hlater.trans hprocessors, last, hlast, hfinal.trans ?_⟩
      have hfirst : next.declared = (space.declaring [declaration]).declared :=
        hdeclared.trans (congrArg AddressSpace.declared (AddressSpace.state_defineRegion ..))
      rw [AddressSpace.declared_declaring hfirst declarations, AddressSpace.declaring_declaring,
        List.singleton_append]

/-- The same declarations may be made in both spaces in orders that differ for those only that add
regions without a common page. -/
theorem DeclareAlike.declaring (hs : Reachable s held) (ht : Reachable t rest)
    (h : DeclareAlike slot other s t) {declarations others : List Declaration}
    (hmoved : Reorders Declaration.Overlaps declarations others) :
    DeclareAlike slot other (Session.after slot s (declarations.map Declaration.use))
      (Session.after other t (others.map Declaration.use)) := by
  obtain ⟨one, another, hone, hanother, halike⟩ := h.spaces
  obtain ⟨hprocessors, next, hnext, hdeclared⟩ := exists_declaring hs hone declarations
  obtain ⟨hprocessorsToo, last, hlast, hdeclaredToo⟩ := exists_declaring ht hanother others
  have hmade := (halike.declaring hmoved).of_declared hdeclared hdeclaredToo
  refine ⟨?_, next, last, hnext, hlast, hmade⟩
  rw [hprocessors, hprocessorsToo, h.processors]

end Runs

/-- Two sessions with spaces in two slots that decide alike: the same region decides about a page in
both, and a fault that would map a page in both is seen to end alike. The processor has to mask the
machine whose cache it writes, or else the machines have to resemble each other. -/
def DecideAlike (slot other : SlotId) (s t : Session n) : Prop :=
  ∃ one another, space? slot s = some one ∧ space? other t = some another ∧
    (∀ page, Region.deciding? another.1.regions page = Region.deciding? one.1.regions page) ∧
    ∀ (processor : Processor n) (machines others : Machines n) (word : UInt64),
      (processor.cache = processor.interrupts ∨ machines.Resemble others) →
      AddressSpace.AwaitsPage one word → AddressSpace.AwaitsPage another word →
      (∀ access, (Context.handleFault processor access word (some one, machines)).seen =
          (Context.handleFault processor access word (some another, others)).seen) ∧
        ∀ code, (Context.handleRawFault processor code word (some one, machines)).seen =
          (Context.handleRawFault processor code word (some another, others)).seen

theorem DeclareAlike.decideAlike {held rest : Holdings} (hs : Reachable s held)
    (ht : Reachable t rest) (h : DeclareAlike slot other s t) : DecideAlike slot other s t := by
  obtain ⟨one, another, hone, hanother, halike⟩ := h.spaces
  obtain ⟨pool, hspace⟩ := hs.balances.exists_space? hone
  obtain ⟨last, hother⟩ := ht.balances.exists_space? hanother
  obtain ⟨owned, hbacked⟩ := hs.balances.exists_backed hspace
  obtain ⟨others, hbackedToo⟩ := ht.balances.exists_backed hother
  refine ⟨(one, pool), (another, last), hspace, hother, halike.deciding?_eq, ?_⟩
  intro processor machines caches word hmachines hpage hpageToo
  have hfault : ∀ access,
      (Context.handleFault processor access word (some (one, pool), machines)).seen =
        (Context.handleFault processor access word (some (another, last), caches)).seen :=
    Context.seen_handleFault_of_awaits halike hbacked hbackedToo hpage hpageToo hmachines
  refine ⟨hfault, fun code => ?_⟩
  rw [Context.handleRawFault]
  cases Access.ofCode code with
  | ok access => exact hfault access
  | error reason => rfl

/-- How overlaps are decided. Of the regions that hold a page the one declared last decides, and a
region that is added decides about its own pages only. So the order of declarations matters for
regions with a common page only: if the same is declared in two spaces in orders that agree on
those, then the spaces decide alike, and whatever is done with both of them afterwards, be it in a
load phase or out of it, they keep deciding alike. -/
theorem decideAlike_of_reordered :
    (∀ (regions : List Region) (page : PageNumber), Region.LatestDecides regions page) ∧
    (∀ regions others : List Region, Reorders Region.Overlaps regions others →
      ∀ page, Region.deciding? others page = Region.deciding? regions page) ∧
    ∀ {s t : Session n} {held rest : Holdings} {slot other : SlotId}, Reachable s held →
      Reachable t rest → DeclareAlike slot other s t → ∀ declarations others : List Declaration,
        Reorders Declaration.Overlaps declarations others → ∀ uses : List Use,
          DecideAlike slot other
            (after slot (after slot s (declarations.map Declaration.use)) uses)
            (after other (after other t (others.map Declaration.use)) uses) := by
  refine ⟨Region.latestDecides, fun _ _ => Region.deciding?_of_reorders, ?_⟩
  intro s t held rest slot other hs ht h declarations others hmoved uses
  obtain ⟨held, hdeclared⟩ := hs.after slot (declarations.map Declaration.use)
  obtain ⟨rest, hdeclaredToo⟩ := ht.after other (others.map Declaration.use)
  have halike := (h.declaring hs ht hmoved).after hdeclared hdeclaredToo uses
  obtain ⟨_, hlast⟩ := hdeclared.after slot uses
  obtain ⟨_, hlastToo⟩ := hdeclaredToo.after other uses
  exact halike.decideAlike hlast hlastToo

def twoSpaces : Session 1 :=
  (run (ofLimits #[4] #[.sole]) [.space 0 (.new 0), .space 1 (.new 0)]).2

theorem reachable_twoSpaces : Reachable twoSpaces [] :=
  (reachable_ofLimits #[4] #[.sole]).run
    (⟨trivial, trivial, trivial⟩ : HonestRun (ofLimits #[4] #[.sole]) []
      [.space 0 (.new 0), .space 1 (.new 0)])

theorem declareAlike_twoSpaces : DeclareAlike 0 1 twoSpaces twoSpaces := by
  have hblank : ∀ slot : Fin 2, (twoSpaces.spaces.get? slot).map AddressSpace.declared =
      some (AddressSpace.declared (.blank 0)) := by
    decide +kernel
  obtain ⟨one, hone, hdeclared⟩ := Option.map_eq_some_iff.mp (hblank 0)
  obtain ⟨another, hanother, hdeclaredToo⟩ := Option.map_eq_some_iff.mp (hblank 1)
  have hrefl : (AddressSpace.blank 0).DeclaresAlike (.blank 0) := ⟨.refl _, rfl, rfl⟩
  exact ⟨rfl, one, another, hone, hanother, hrefl.of_declared hdeclared hdeclaredToo⟩

/-- Code, data that begin in the last page of the code, and a page apart from both. -/
def program : List Declaration :=
  [⟨0x1000, 0x2000, ⟨true, false, true⟩⟩, ⟨0x2800, 0x1000, .readWrite⟩, ⟨0x8000, 0x1, .all⟩]

def loading (slot : SlotId) (declarations : List Declaration) : Session 1 :=
  after slot (after slot twoSpaces (declarations.map Declaration.use)) [.beginLoad]

theorem awaitsPage_loading (slot : Fin 2) :
    ∃ t, space? slot (loading slot (program.rotate (2 * slot))) = some t ∧
      AddressSpace.AwaitsPage t 0x2000 := by
  have hseen : ∀ slot : Fin 2,
      (space? slot (loading slot (program.rotate (2 * slot)))).map (fun t =>
        (t.1.table.contains ⟨2⟩, t.2.outstanding, t.2.limit)) = some (false, 0, 4) := by
    decide +kernel
  obtain ⟨t, ht, hcounted⟩ := Option.map_eq_some_iff.mp (hseen slot)
  simp only [Prod.mk.injEq] at hcounted
  obtain ⟨hunmapped, houtstanding, hlimit⟩ := hcounted
  have hword : VirtualAddress.ofWord? 0x2000 = some ⟨0x2000⟩ := by decide
  refine ⟨t, ht, fun address haddress => ?_, by omega⟩
  obtain rfl := Option.some.inj (hword.symm.trans haddress)
  exact hunmapped

theorem decideAlike_of_twoSpaces :
    Reorders Declaration.Overlaps program (program.rotate 2) ∧
      Declaration.Overlaps program[0] program[1] ∧
      DecideAlike 0 1 (loading 0 program) (loading 1 (program.rotate 2)) ∧
      (∃ one, space? 0 (loading 0 program) = some one ∧ AddressSpace.AwaitsPage one 0x2000) ∧
      ∃ other, space? 1 (loading 1 (program.rotate 2)) = some other ∧
        AddressSpace.AwaitsPage other 0x2000 := by
  have hmoved : Reorders Declaration.Overlaps program (program.rotate 2) :=
    ⟨program.zipIdx, program.zipIdx.rotate 2, rfl, rfl, List.rotate_perm _ 2, by decide +kernel,
      by decide +kernel⟩
  exact ⟨hmoved, by decide +kernel, decideAlike_of_reordered.2.2 reachable_twoSpaces
    reachable_twoSpaces declareAlike_twoSpaces program (program.rotate 2) hmoved [.beginLoad],
    awaitsPage_loading 0, awaitsPage_loading 1⟩

end Session

end DemandPaging
