import DemandPaging.Proofs.Fault
import DemandPaging.Proofs.Session.Balance

namespace DemandPaging

namespace Session

variable {n : Nat} {α β : Type}

/-- The tables in slots, those of address spaces among them. -/
def liveTables (s : Session n) : List PageTable :=
  s.tables.values ++ s.spaces.values.map AddressSpace.table

/-- The pools of a session are balanced with its tables and some loose ones. -/
def Balances (s : Session n) (loose : List PageTable) (held : Holdings) : Prop :=
  Balanced s.pools (loose ++ s.liveTables) held

/-- A step that takes no table away and adds none leaves a balanced session balanced, however it
ends. -/
def Keeps (x : Action (Session n) α) : Prop :=
  ∀ s loose held, Balances s loose held → Balances (x s).state loose held

theorem keeps_pure (a : α) : Keeps (pure a : Action (Session n) α) :=
  fun _ _ _ h => h

theorem keeps_stop (reason : Stop) : Keeps (Action.stop reason : Action (Session n) α) :=
  fun _ _ _ h => h

theorem keeps_bind {x : Action (Session n) α} {f : α → Action (Session n) β} (hx : Keeps x)
    (hf : ∀ a, Keeps (f a)) : Keeps (x >>= f) := by
  intro s loose held h
  rw [Action.state_bind]
  cases (x s).result with
  | ok a => exact hf a _ loose held (hx s loose held h)
  | error reason => exact hx s loose held h

theorem keeps_return {x : Action (Session n) α} (f : α → β) (hx : Keeps x) :
    Keeps (x >>= fun a => pure (f a)) := by
  apply keeps_bind hx
  intro a
  exact keeps_pure (f a)

theorem named_bind (value : Session n → Option α) (f : α → Action (Session n) β) (s : Session n) :
    (named value >>= f) s =
      match value s with
      | some a => f a s
      | none => ⟨.error .absent, s, []⟩ := by
  rw [Action.run_bind, named, Action.run_bind]
  cases hvalue : value s <;> simp [hvalue]

theorem keeps_named_bind {value : Session n → Option α} {f : α → Action (Session n) β}
    (hf : ∀ a s loose held, value s = some a → Balances s loose held →
      Balances (f a s).state loose held) :
    Keeps (named value >>= f) := by
  intro s loose held h
  rw [named_bind]
  cases hvalue : value s with
  | some a => exact hf a s loose held hvalue h
  | none => exact h

section Parts

variable {s : Session n} {slot : SlotId}

theorem onPool_of_some {id : PoolId} {pool : FramePool} (h : s.pools[id]? = some pool)
    (x : Action FramePool α) :
    onPool id x s = ⟨(x pool).result, putPool id (x pool).state s, (x pool).events⟩ := by
  rw [onPool, Action.onSome, h]

theorem onPool_of_none {id : PoolId} (h : s.pools[id]? = none) (x : Action FramePool α) :
    onPool id x s = ⟨.error .absent, s, []⟩ := by
  rw [onPool, Action.onSome, h]

theorem liveTables_perm_erase_table (s : Session n) (slot : SlotId) :
    s.liveTables.Perm
      ((s.tables.get? slot).toList ++ liveTables { s with tables := s.tables.erase slot }) := by
  have hvalues := (s.tables.values_perm_erase slot).append_right
    (s.spaces.values.map AddressSpace.table)
  rw [List.append_assoc] at hvalues
  exact hvalues

theorem liveTables_perm_put_table (s : Session n) (slot : SlotId) (table : PageTable) :
    (liveTables { s with tables := s.tables.put slot table }).Perm
      (table :: liveTables { s with tables := s.tables.erase slot }) :=
  (s.tables.values_put_perm slot table).append_right _

theorem liveTables_perm_erase_space (s : Session n) (slot : SlotId) :
    s.liveTables.Perm
      (((s.spaces.get? slot).map AddressSpace.table).toList ++
        liveTables { s with spaces := s.spaces.erase slot }) := by
  have hvalues := (s.spaces.values_perm_erase slot).map AddressSpace.table
  rw [List.map_append, ← Option.toList_map] at hvalues
  exact (hvalues.append_left s.tables.values).trans (List.perm_append_comm_assoc _ _ _)

theorem liveTables_perm_put_space (s : Session n) (slot : SlotId) (space : AddressSpace) :
    (liveTables { s with spaces := s.spaces.put slot space }).Perm
      (space.table :: liveTables { s with spaces := s.spaces.erase slot }) :=
  (((s.spaces.values_put_perm slot space).map AddressSpace.table).append_left _).trans
    List.perm_middle

theorem liveTables_perm_of_table {table : PageTable} (h : s.tables.get? slot = some table) :
    s.liveTables.Perm (table :: liveTables { s with tables := s.tables.erase slot }) := by
  have hlive := s.liveTables_perm_erase_table slot
  rw [h] at hlive
  exact hlive

theorem liveTables_perm_of_space {space : AddressSpace} (h : s.spaces.get? slot = some space) :
    s.liveTables.Perm (space.table :: liveTables { s with spaces := s.spaces.erase slot }) := by
  have hlive := s.liveTables_perm_erase_space slot
  rw [h] at hlive
  exact hlive

private theorem both_eq_some_iff {α β : Type} {first : Option α} {second : α → Option β}
    {t : α × β} :
    (do
      let a ← first
      return (a, ← second a)) = some t ↔ first = some t.1 ∧ second t.1 = some t.2 := by
  rcases t with ⟨a, b⟩
  simp only [bind, pure, Option.bind_eq_some_iff, Option.some.injEq, Prod.mk.injEq]
  constructor
  · rintro ⟨found, hfound, other, hother, rfl, rfl⟩
    exact ⟨hfound, hother⟩
  · rintro ⟨hfound, hother⟩
    exact ⟨a, hfound, b, hother, rfl, rfl⟩

theorem table?_eq_some_iff {t : PageTable × FramePool} :
    table? slot s = some t ↔ s.tables.get? slot = some t.1 ∧ s.pools[t.1.pool]? = some t.2 :=
  both_eq_some_iff

theorem space?_eq_some_iff {t : AddressSpace × FramePool} :
    space? slot s = some t ↔
      s.spaces.get? slot = some t.1 ∧ s.pools[t.1.table.pool]? = some t.2 :=
  both_eq_some_iff

end Parts

section Spaces

variable {s : Session n} {slot : SlotId}

theorem get?_putSpace (t : AddressSpace × FramePool) (s : Session n) :
    (putSpace slot t s).spaces.get? slot = some t.1 :=
  (s.spaces.get?_put slot slot t.1).trans (if_pos rfl)

theorem putPool_self {id : PoolId} {pool : FramePool} (h : s.pools[id]? = some pool) :
    putPool id pool s = s := by
  obtain ⟨hid, hpool⟩ := Array.getElem?_eq_some_iff.mp h
  have hpools : s.pools.setIfInBounds id pool = s.pools := by
    rw [Array.setIfInBounds_def, dif_pos hid, ← hpool, Array.set_getElem_self]
  rw [putPool, hpools]

theorem putSpace_self {t : AddressSpace × FramePool} (h : space? slot s = some t) :
    putSpace slot t s = s := by
  obtain ⟨hspace, hpool⟩ := space?_eq_some_iff.mp h
  rw [putSpace, putPool_self hpool, Slots.put_self hspace]

theorem putSpace_putSpace {t next : AddressSpace × FramePool}
    (hpool : next.1.table.pool = t.1.table.pool) (s : Session n) :
    putSpace slot next (putSpace slot t s) = putSpace slot next s := by
  simp only [putSpace, putPool, hpool, Array.setIfInBounds_setIfInBounds, Slots.put_put]

theorem space?_eq_none_of_get? (h : s.spaces.get? slot = none) : space? slot s = none := by
  rw [space?, h]
  rfl

theorem space?_putPool {space : AddressSpace} {pool : FramePool}
    (h : space? slot s = some (space, pool)) (next : FramePool) :
    space? slot (putPool space.table.pool next s) = some (space, next) := by
  obtain ⟨hslot, hpool⟩ := space?_eq_some_iff.mp h
  exact space?_eq_some_iff.mpr ⟨hslot,
    Array.getElem?_setIfInBounds_self_of_lt (Array.getElem?_eq_some_iff.mp hpool).1⟩

theorem space?_putSpace {t next : AddressSpace × FramePool} (hspace : space? slot s = some t)
    (hpool : next.1.table.pool = t.1.table.pool) :
    space? slot (putSpace slot next s) = some next := by
  obtain ⟨-, hthere⟩ := space?_eq_some_iff.mp hspace
  obtain ⟨hsize, -⟩ := Array.getElem?_eq_some_iff.mp hthere
  refine space?_eq_some_iff.mpr ⟨get?_putSpace next s, ?_⟩
  change (s.pools.setIfInBounds next.1.table.pool next.2)[next.1.table.pool]? = some next.2
  rw [Array.getElem?_setIfInBounds, if_pos rfl, if_pos (hpool ▸ hsize)]

theorem space?_put {t : AddressSpace × FramePool} (h : space? slot s = some t)
    (space : AddressSpace) (machines : Machines n) :
    space? slot
        { s with spaces := s.spaces.put slot { space with table := t.1.table }, machines } =
      some ({ space with table := t.1.table }, t.2) :=
  space?_eq_some_iff.mpr ⟨(s.spaces.get?_put slot slot _).trans (if_pos rfl),
    (space?_eq_some_iff.mp h).2⟩

theorem onSpace_of_some {t : AddressSpace × FramePool} (h : space? slot s = some t)
    (x : Action (AddressSpace × FramePool) α) :
    onSpace slot x s = ⟨(x t).result, putSpace slot (x t).state s, (x t).events⟩ :=
  Action.onSome_of_some h _ _

theorem onSpace_of_none (h : space? slot s = none) (x : Action (AddressSpace × FramePool) α) :
    onSpace slot x s = ⟨.error .absent, s, []⟩ :=
  Action.onSome_of_none h _ _

theorem onLoad_of_some {space : AddressSpace} (h : s.spaces.get? slot = some space)
    (x : Action (AddressSpace × Machines n) α) :
    onLoad slot x s =
      ⟨(x (space, s.machines)).result,
        { s with
          spaces := s.spaces.put slot (x (space, s.machines)).state.1
          machines := (x (space, s.machines)).state.2 },
        (x (space, s.machines)).events⟩ :=
  Action.onSome_of_some (by rw [h]; rfl) _ _

theorem onLoad_of_none (h : s.spaces.get? slot = none)
    (x : Action (AddressSpace × Machines n) α) : onLoad slot x s = ⟨.error .absent, s, []⟩ :=
  Action.onSome_of_none (by rw [h]; rfl) _ _

theorem onProcess_of_some {x : Action (Context × Machines n) Unit} {result : Except Stop Unit}
    {machines : Machines n} {events : List Event} {t next : AddressSpace × FramePool}
    (hspace : space? slot s = some t)
    (hx : x (some t, s.machines) = ⟨result, (some next, machines), events⟩) :
    onProcess slot x s = ⟨result, { putSpace slot next s with machines }, events⟩ := by
  rw [onProcess, Action.run_on, hspace, hx]

theorem onProcess_of_none {x : Action (Context × Machines n) Unit} {result : Except Stop Unit}
    {events : List Event} (hspace : space? slot s = none)
    (hx : x (none, s.machines) = ⟨result, (none, s.machines), events⟩) :
    onProcess slot x s = ⟨result, s, events⟩ := by
  rw [onProcess, Action.run_on, hspace, hx]

end Spaces

end Session

theorem Balanced.front {pools : Array FramePool} {loose live others : List PageTable}
    {table : PageTable} {held : Holdings} (h : Balanced pools (loose ++ live) held)
    (hlive : live.Perm (table :: others)) :
    Balanced pools (table :: (loose ++ others)) held :=
  h.perm ((hlive.append_left loose).trans List.perm_middle)

theorem Balanced.conserve_live {pools : Array FramePool} {loose live others : List PageTable}
    {table : PageTable} {held : Holdings} {pool : FramePool} {t : PageTable × FramePool}
    (h : Balanced pools (loose ++ live) held) (hlive : live.Perm (table :: others))
    (hpool : pools[table.pool]? = some pool) (ht : PageTable.Conserves (table, pool) t)
    {changed : List PageTable} (hchanged : changed.Perm (t.1 :: others)) :
    Balanced (pools.setIfInBounds t.1.pool t.2) (loose ++ changed) held := by
  have hbalanced := (h.front hlive).conserve hpool ht
  rw [← (ht _ ((h.front hlive).backed hpool)).1] at hbalanced
  exact hbalanced.perm (List.perm_middle.symm.trans (hchanged.symm.append_left loose))

namespace Session

section Homed

variable {n : Nat} {s : Session n} {loose : List PageTable} {held : Holdings} {slot : SlotId}

theorem mem_liveTables_of_table {table : PageTable} (h : s.tables.get? slot = some table) :
    table ∈ s.liveTables :=
  (liveTables_perm_of_table h).mem_iff.mpr List.mem_cons_self

theorem mem_liveTables_of_space {space : AddressSpace} (h : s.spaces.get? slot = some space) :
    space.table ∈ s.liveTables :=
  (liveTables_perm_of_space h).mem_iff.mpr List.mem_cons_self

theorem Balances.exists_table? (h : Balances s loose held) {table : PageTable}
    (htable : s.tables.get? slot = some table) : ∃ pool, table? slot s = some (table, pool) := by
  obtain ⟨pool, hpool⟩ :=
    h.exists_pool (List.mem_append_right loose (mem_liveTables_of_table htable))
  exact ⟨pool, table?_eq_some_iff.mpr ⟨htable, hpool⟩⟩

theorem Balances.exists_space? (h : Balances s loose held) {space : AddressSpace}
    (hspace : s.spaces.get? slot = some space) : ∃ pool, space? slot s = some (space, pool) := by
  obtain ⟨pool, hpool⟩ :=
    h.exists_pool (List.mem_append_right loose (mem_liveTables_of_space hspace))
  exact ⟨pool, space?_eq_some_iff.mpr ⟨hspace, hpool⟩⟩

theorem Balances.exists_backed (h : Balances s loose held) {t : AddressSpace × FramePool}
    (hspace : space? slot s = some t) : ∃ owned, PageTable.Backed owned (AddressSpace.part t) := by
  obtain ⟨hslot, hpool⟩ := space?_eq_some_iff.mp hspace
  exact ⟨_, (h.front (liveTables_perm_of_space hslot)).backed hpool⟩

theorem Balances.exists_backed_table (h : Balances s loose held) {t : PageTable × FramePool}
    (htable : table? slot s = some t) : ∃ owned, PageTable.Backed owned t := by
  obtain ⟨hslot, hpool⟩ := table?_eq_some_iff.mp htable
  exact ⟨_, (h.front (liveTables_perm_of_table hslot)).backed hpool⟩

end Homed

section Keeps

variable {n : Nat} {α : Type}

theorem keeps_onSome {τ : Type} {part : Session n → Option τ} {put : τ → Session n → Session n}
    {x : Action τ α}
    (hx : ∀ s loose held t, Balances s loose held → part s = some t →
      Balances (put (x t).state s) loose held) :
    Keeps (x.onSome part put) := by
  intro s loose held h
  cases hpart : part s with
  | none =>
      rw [Action.onSome_of_none hpart]
      exact h
  | some t =>
      rw [Action.onSome_of_some hpart]
      exact hx s loose held t h hpart

theorem keeps_onPool (id : PoolId) {x : Action FramePool α}
    (hx : ∀ pool owned, pool.HandedOut owned → (x pool).state.HandedOut owned) :
    Keeps (onPool id x : Action (Session n) α) := by
  refine keeps_onSome fun s loose held pool h hpool => ?_
  exact h.withPool (fun _ _ => .rfl) fun _ => hx pool _ (h.handedOut id pool hpool)

theorem keeps_onMachines (x : Action (Machines n) α) : Keeps (onMachines x) :=
  fun _ _ _ h => h

theorem keeps_onTable (slot : SlotId) {x : Action (PageTable × FramePool) α}
    (hx : ∀ t, PageTable.Conserves t (x t).state) :
    Keeps (onTable slot x : Action (Session n) α) := by
  refine keeps_onSome fun s loose held t h htable => ?_
  obtain ⟨hslot, hpool⟩ := table?_eq_some_iff.mp htable
  exact h.conserve_live (liveTables_perm_of_table hslot) hpool (hx t)
    (s.liveTables_perm_put_table slot _)

theorem balances_putSpace {s : Session n} {loose : List PageTable} {held : Holdings} {slot : SlotId}
    (h : Balances s loose held) {t next : AddressSpace × FramePool}
    (hspace : space? slot s = some t)
    (hnext : PageTable.Conserves (AddressSpace.part t) (AddressSpace.part next)) :
    Balances (putSpace slot next s) loose held := by
  obtain ⟨hslot, hpool⟩ := space?_eq_some_iff.mp hspace
  exact h.conserve_live (liveTables_perm_of_space hslot) hpool hnext
    (s.liveTables_perm_put_space slot _)

theorem keeps_onSpace (slot : SlotId) {x : Action (AddressSpace × FramePool) α}
    (hx : ∀ t, PageTable.Conserves (AddressSpace.part t) (AddressSpace.part (x t).state)) :
    Keeps (onSpace slot x : Action (Session n) α) :=
  keeps_onSome fun _ _ _ t h hspace => balances_putSpace h hspace (hx t)

theorem keeps_onLoad (slot : SlotId) {x : Action (AddressSpace × Machines n) α}
    (hx : ∀ t, (x t).state.1.table = t.1.table) : Keeps (onLoad slot x) := by
  refine keeps_onSome fun s loose held t h ht => ?_
  obtain ⟨space, hspace, rfl⟩ := Option.map_eq_some_iff.mp ht
  have hput := s.liveTables_perm_put_space slot (x (space, s.machines)).state.1
  rw [hx (space, s.machines)] at hput
  exact h.perm (((liveTables_perm_of_space hspace).trans hput.symm).append_left loose)

theorem keeps_onProcess (slot : SlotId) {x : Action (Context × Machines n) α}
    (hx : Context.Conserving x) : Keeps (onProcess slot x) := by
  intro s loose held h
  rw [onProcess, Action.run_on]
  cases hspace : space? slot s with
  | none =>
      rw [hx.absent s.machines]
      exact h
  | some t =>
      obtain ⟨next, hnext, hconserves⟩ := hx.conserves t s.machines
      rw [hnext]
      exact balances_putSpace h hspace hconserves

end Keeps

end Session

end DemandPaging
