import DemandPaging.Proofs.Session.Placement

namespace DemandPaging

namespace Action

variable {σ τ ρ α β : Type} {part : σ → τ}

/-- An operation leaves a part of the state as it is, however it ends. -/
def Leaves (part : σ → τ) (x : Action σ α) : Prop :=
  ∀ s, part (x s).state = part s

theorem leaves_pure (a : α) : Leaves part (pure a : Action σ α) :=
  fun _ => rfl

theorem leaves_stop (reason : Stop) : Leaves part (stop reason : Action σ α) :=
  fun _ => rfl

theorem leaves_lift (result : Except Violation α) : Leaves part (liftM result : Action σ α) :=
  fun _ => rfl

theorem leaves_update {f : σ → σ} (h : ∀ s, part (f s) = part s) : Leaves part (update f) :=
  h

theorem leaves_bind {x : Action σ α} {f : α → Action σ β} (hx : Leaves part x)
    (hf : ∀ a, Leaves part (f a)) : Leaves part (x >>= f) := by
  intro s
  rw [state_bind]
  cases (x s).result with
  | ok a => exact (hf a _).trans (hx s)
  | error reason => exact hx s

theorem leaves_return {x : Action σ α} (f : α → β) (hx : Leaves part x) :
    Leaves part (x >>= fun a => pure (f a)) :=
  leaves_bind hx fun a => leaves_pure (f a)

theorem leaves_ite {check : Prop} [Decidable check] {x rest : Action σ α} (hx : Leaves part x)
    (hrest : Leaves part rest) : Leaves part (if check then x else rest) := by
  split
  · exact hx
  · exact hrest

theorem leaves_onSome {of : σ → Option ρ} {put : ρ → σ → σ} (x : Action ρ α)
    (hput : ∀ t s, part (put t s) = part s) : Leaves part (x.onSome of put) := by
  intro s
  cases hof : of s with
  | some t =>
      rw [onSome_of_some hof]
      exact hput _ s
  | none => rw [onSome_of_none hof]

theorem Leaves.of_part {x : Action σ α} (h : Leaves part x) (see : τ → ρ) :
    Leaves (fun s => see (part s)) x :=
  fun s => congrArg see (h s)

end Action

/-- The slot in which a request may change the space: that of the space to which it is made, or the
one where a copy is put. -/
def SpaceRequest.changed? (slot : SlotId) : SpaceRequest → Option SlotId
  | .new _ | .define _ _ _ | .stack | .beginLoad | .endLoad _ | .destroy | .drop => some slot
  | .copy target => some target
  | .info | .physical _ | .poke _ _ | .peek _ _ | .sameRegions _ => none

namespace Session

variable {n : Nat} {α β : Type} {slot other : SlotId}

def outside (s : Session n) : Machines n × Slots AddressSpace :=
  (s.machines, s.spaces)

def view (slot : SlotId) (s : Session n) : Machines n × Option AddressSpace :=
  (s.machines, s.spaces.get? slot)

theorem leaves_view {x : Action (Session n) α} (h : Action.Leaves outside x) (slot : SlotId) :
    Action.Leaves (view slot) x :=
  h.of_part fun part => (part.1, part.2.get? slot)

theorem leaves_named_bind {τ : Type} {part : Session n → τ} {value : Session n → Option α}
    {f : α → Action (Session n) β} (hf : ∀ a, Action.Leaves part (f a)) :
    Action.Leaves part (named value >>= f) := by
  intro s
  rw [named_bind]
  cases value s with
  | some a => exact hf a s
  | none => rfl

theorem leaves_onPool (id : PoolId) (x : Action FramePool α) :
    Action.Leaves outside (onPool id x : Action (Session n) α) :=
  Action.leaves_onSome x fun _ _ => rfl

theorem leaves_onTable (slot : SlotId) (x : Action (PageTable × FramePool) α) :
    Action.Leaves outside (onTable slot x : Action (Session n) α) :=
  Action.leaves_onSome x fun _ _ => rfl

theorem leaves_giveUpTable (table : PageTable) :
    Action.Leaves outside (giveUpTable table : Action (Session n) Unit) :=
  leaves_onPool table.pool _

theorem leaves_placeTable (slot : SlotId) (table : PageTable) :
    Action.Leaves outside (placeTable slot table : Action (Session n) Unit) := by
  intro s
  rw [state_placeTable]
  cases s.tables.get? slot with
  | none => rfl
  | some old => exact leaves_giveUpTable old _

theorem leaves_locate (table : PageTable) (page : PageNumber) (offset : UInt64) :
    Action.Leaves outside (locate table page offset : Action (Session n) PhysicalAddress) := by
  rw [locate]
  cases table.find? page with
  | some entry => exact fun _ => rfl
  | none => exact Action.leaves_stop _

theorem leaves_reach (space : AddressSpace) (address : UInt64) :
    Action.Leaves outside (reach space address : Action (Session n) PhysicalAddress) := by
  apply Action.leaves_bind (Action.leaves_lift _)
  intro address
  cases space.physical? address with
  | some address => exact Action.leaves_pure _
  | none => exact Action.leaves_stop _

theorem leaves_writeTo (pool : PoolId) (address : PhysicalAddress) (bytes : List UInt8) :
    Action.Leaves outside (writeTo pool address bytes : Action (Session n) Answer) :=
  Action.leaves_return _ (leaves_onPool pool _)

theorem leaves_readFrom (pool : PoolId) (address : PhysicalAddress) (count : Nat) :
    Action.Leaves outside (readFrom pool address count : Action (Session n) Answer) :=
  leaves_named_bind fun _ => Action.leaves_bind (Action.leaves_lift _) fun _ => Action.leaves_pure _

theorem leaves_answerTable (slot : SlotId) (request : TableRequest) :
    Action.Leaves outside (answerTable slot request : Action (Session n) Answer) := by
  cases request with
  | new pool =>
      exact leaves_named_bind fun _ => Action.leaves_return _ (leaves_placeTable slot _)
  | ensure first => exact Action.leaves_return _ (leaves_onTable slot _)
  | create page dirty => exact Action.leaves_return _ (leaves_onTable slot _)
  | entry page => exact leaves_named_bind fun _ => Action.leaves_pure _
  | mapped => exact leaves_named_bind fun _ => Action.leaves_pure _
  | copy target =>
      apply leaves_named_bind
      intro table
      apply Action.leaves_bind (leaves_onPool table.pool _)
      intro copied
      exact Action.leaves_return _ (leaves_placeTable target copied)
  | destroy => exact Action.leaves_return _ (leaves_onTable slot _)
  | drop =>
      apply Action.leaves_bind (leaves_onTable slot _)
      intro _
      exact Action.leaves_return _ (Action.leaves_update fun _ => rfl)
  | poke page offset bytes =>
      apply leaves_named_bind
      intro table
      exact Action.leaves_bind (leaves_locate table page offset) fun _ => leaves_writeTo _ _ _
  | peek page offset count =>
      apply leaves_named_bind
      intro table
      exact Action.leaves_bind (leaves_locate table page offset) fun _ => leaves_readFrom _ _ _

section Spaces

variable (hne : other ≠ slot)

include hne

theorem leaves_onSpace (x : Action (AddressSpace × FramePool) α) :
    Action.Leaves (view other) (onSpace slot x : Action (Session n) α) :=
  Action.leaves_onSome x fun t s =>
    congrArg (s.machines, ·) ((s.spaces.get?_put slot other t.1).trans (if_neg hne))

theorem leaves_eraseSpace :
    Action.Leaves (view other) (Action.update fun s : Session n =>
      { s with spaces := s.spaces.erase slot }) :=
  Action.leaves_update fun s =>
    congrArg (s.machines, ·) ((s.spaces.get?_erase slot other).trans (if_neg hne))

theorem leaves_placeSpace (space : AddressSpace) :
    Action.Leaves (view other) (placeSpace slot space : Action (Session n) Unit) := by
  intro s
  have hput : view other { s with spaces := s.spaces.put slot space } = view other s :=
    congrArg (s.machines, ·) ((s.spaces.get?_put slot other space).trans (if_neg hne))
  rw [state_placeSpace]
  cases (s.spaces.get? slot).map AddressSpace.table with
  | none => exact hput
  | some old => exact (leaves_view (leaves_giveUpTable old) other _).trans hput

end Spaces

theorem leaves_answerSpace {request : SpaceRequest} (hother : request.changed? slot ≠ some other)
    (hload : ∀ processor, request ≠ .endLoad processor) :
    Action.Leaves (view other) (answerSpace slot request : Action (Session n) Answer) := by
  have hslot : request.changed? slot = some slot → other ≠ slot := by
    rintro hchanged rfl
    exact hother hchanged
  cases request with
  | new pool =>
      apply leaves_named_bind
      intro _ s
      rw [Action.bind_of_ok (AddressSpace.create_eq pool s), Outcome.state_after]
      exact Action.leaves_return _ (leaves_placeSpace (hslot rfl) _) s
  | define address length permissions =>
      exact Action.leaves_return _ (leaves_onSpace (hslot rfl) _)
  | stack => exact Action.leaves_return _ (leaves_onSpace (hslot rfl) _)
  | beginLoad => exact Action.leaves_return _ (leaves_onSpace (hslot rfl) _)
  | endLoad processor => exact absurd rfl (hload processor)
  | info => exact leaves_named_bind fun _ => Action.leaves_pure _
  | physical addresses => exact leaves_named_bind fun _ => Action.leaves_pure _
  | poke address bytes =>
      apply leaves_named_bind
      intro space
      exact Action.leaves_bind (leaves_view (leaves_reach space address) other) fun _ =>
        leaves_view (leaves_writeTo _ _ _) other
  | peek address count =>
      apply leaves_named_bind
      intro space
      exact Action.leaves_bind (leaves_view (leaves_reach space address) other) fun _ =>
        leaves_view (leaves_readFrom _ _ _) other
  | copy target =>
      have hne : other ≠ target := by
        rintro rfl
        exact hother rfl
      apply leaves_named_bind
      intro space
      apply Action.leaves_bind (leaves_view (leaves_onPool space.table.pool _) other)
      intro copied
      exact Action.leaves_return _ (leaves_placeSpace hne copied)
  | sameRegions another =>
      exact leaves_named_bind fun _ => leaves_named_bind fun _ => Action.leaves_pure _
  | destroy =>
      apply Action.leaves_bind (leaves_onSpace (hslot rfl) _)
      intro _
      exact Action.leaves_return _ (leaves_eraseSpace (hslot rfl))
  | drop =>
      apply Action.leaves_bind (leaves_onSpace (hslot rfl) _)
      intro _
      exact Action.leaves_return _ (leaves_eraseSpace (hslot rfl))

end Session

end DemandPaging
