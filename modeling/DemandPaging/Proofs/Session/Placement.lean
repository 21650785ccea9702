import DemandPaging.Proofs.Ledger
import DemandPaging.Proofs.Session.Steps

namespace DemandPaging

namespace Session

variable {n : Nat} {s : Session n} {loose : List PageTable} {held : Holdings}

theorem balances_giveUpTable {table : PageTable} (h : Balances s (table :: loose) held) :
    Balances (giveUpTable table s).state loose held := by
  obtain ⟨pool, hpool⟩ := h.exists_pool List.mem_cons_self
  rw [giveUpTable, onPool_of_some hpool]
  exact (h.conserve hpool (PageTable.conserves_destroy (table, pool))).forget
    (h.backed hpool).frames_destroy

theorem giveUpSpace_eq (space : AddressSpace) :
    (giveUpSpace space : Action (Session n) Unit) = giveUpTable space.table := rfl

theorem state_placeTable (slot : SlotId) (table : PageTable) (s : Session n) :
    (placeTable slot table s).state =
      (s.tables.get? slot).elim { s with tables := s.tables.put slot table } fun old =>
        (giveUpTable old { s with tables := s.tables.put slot table }).state := by
  rw [placeTable]
  cases hold : s.tables.get? slot <;> simp [hold]

theorem state_placeSpace (slot : SlotId) (space : AddressSpace) (s : Session n) :
    (placeSpace slot space s).state =
      ((s.spaces.get? slot).map AddressSpace.table).elim
        { s with spaces := s.spaces.put slot space } fun old =>
          (giveUpTable old { s with spaces := s.spaces.put slot space }).state := by
  rw [placeSpace]
  cases hold : s.spaces.get? slot <;> simp [hold, giveUpSpace_eq]

theorem perm_of_displaced {loose live changed others : List PageTable} {table : PageTable}
    {old : Option PageTable} (hlive : live.Perm (old.toList ++ others))
    (hchanged : changed.Perm (table :: others)) :
    ((table :: loose) ++ live).Perm ((old.toList ++ loose) ++ changed) := by
  rw [List.perm_iff_count] at *
  intro other
  have hbefore := hlive other
  have hafter := hchanged other
  simp only [List.count_append, List.count_cons] at *
  omega

theorem balances_displaced {changed : Session n} {table : PageTable} {old : Option PageTable}
    {others : List PageTable} (h : Balances s (table :: loose) held)
    (hpools : changed.pools = s.pools) (hlive : s.liveTables.Perm (old.toList ++ others))
    (hchanged : changed.liveTables.Perm (table :: others)) :
    Balances changed (old.toList ++ loose) held := by
  rw [Balances, hpools]
  exact h.perm (perm_of_displaced hlive hchanged)

theorem balances_putTable (slot : SlotId) {table : PageTable}
    (h : Balances s (table :: loose) held) :
    Balances { s with tables := s.tables.put slot table } ((s.tables.get? slot).toList ++ loose)
      held :=
  balances_displaced h rfl (s.liveTables_perm_erase_table slot)
    (s.liveTables_perm_put_table slot table)

theorem balances_insertSpace (slot : SlotId) {space : AddressSpace}
    (h : Balances s (space.table :: loose) held) :
    Balances { s with spaces := s.spaces.put slot space }
      (((s.spaces.get? slot).map AddressSpace.table).toList ++ loose) held :=
  balances_displaced h rfl (s.liveTables_perm_erase_space slot)
    (s.liveTables_perm_put_space slot space)

theorem balances_driveOut {old : Option PageTable} (h : Balances s (old.toList ++ loose) held) :
    Balances (old.elim s fun old => (giveUpTable old s).state) loose held := by
  cases old with
  | none => exact h
  | some old => exact balances_giveUpTable h

theorem balances_placeTable (slot : SlotId) {table : PageTable}
    (h : Balances s (table :: loose) held) :
    Balances (placeTable slot table s).state loose held := by
  rw [state_placeTable]
  exact balances_driveOut (balances_putTable slot h)

theorem balances_placeSpace (slot : SlotId) {space : AddressSpace}
    (h : Balances s (space.table :: loose) held) :
    Balances (placeSpace slot space s).state loose held := by
  rw [state_placeSpace]
  exact balances_driveOut (balances_insertSpace slot h)

theorem result_giveUpTable {table : PageTable} (h : Balances s (table :: loose) held) :
    (giveUpTable table s).result = .ok () := by
  obtain ⟨pool, hpool⟩ := h.exists_pool List.mem_cons_self
  obtain ⟨events, hdestroy⟩ := PageTable.destroy_of_handedOut (h.backed hpool).handedOut
  rw [giveUpTable, onPool_of_some hpool, Action.consuming, hdestroy]

theorem result_placeTable (slot : SlotId) {table : PageTable}
    (h : Balances s (table :: loose) held) : (placeTable slot table s).result = .ok () := by
  have hplaced := balances_putTable slot h
  rw [placeTable]
  cases hold : s.tables.get? slot with
  | none => simp [hold]
  | some old =>
      rw [hold] at hplaced
      simp [hold, result_giveUpTable hplaced]

theorem result_placeSpace (slot : SlotId) {space : AddressSpace}
    (h : Balances s (space.table :: loose) held) : (placeSpace slot space s).result = .ok () := by
  have hplaced := balances_insertSpace slot h
  rw [placeSpace]
  cases hold : s.spaces.get? slot with
  | none => simp [hold]
  | some old =>
      rw [hold] at hplaced
      simp [hold, giveUpSpace_eq, result_giveUpTable hplaced]

section CopyLive

variable {α β : Type} {tableOf : α → PageTable} {x : Action FramePool α} {table : PageTable}
  {f : α → Action (Session n) β}

/-- A copy of a live table is loose until it is placed, and one that is not made gives back what was
taken for it. Either way nothing changes but the pool, and there the frames of all tables hold the
same bytes. -/
theorem onPool_of_copies (h : Balances s loose held) (htable : table ∈ s.liveTables)
    (hx : PageTable.Copies table tableOf x) :
    ∃ pool next events, s.pools[table.pool]? = some pool ∧
      (∀ other ∈ s.liveTables, other.pool = table.pool → ∀ frame ∈ other.frames,
        next.memory.contents frame = pool.memory.contents frame) ∧
      ((∃ a, onPool table.pool x s = ⟨.ok a, putPool table.pool next s, events⟩ ∧
          Balances (putPool table.pool next s) (tableOf a :: loose) held) ∨
        onPool table.pool x s =
            ⟨.error (.refused .outOfMemory), putPool table.pool next s, events⟩ ∧
          Balances (putPool table.pool next s) loose held ∧ pool.LeavesNoTrace next) := by
  have hmem : table ∈ loose ++ s.liveTables := List.mem_append_right _ htable
  obtain ⟨pool, hpool⟩ := h.exists_pool hmem
  have howned := h.handedOut table.pool pool hpool
  have hframes : ∀ other ∈ s.liveTables, other.pool = table.pool →
      other.frames ⊆ framesOn table.pool (loose ++ s.liveTables) ++ held.on table.pool := by
    rintro other hother hsame
    rw [← hsame]
    exact List.subset_append_of_subset_left _
      (frames_subset_framesOn (List.mem_append_right _ hother))
  have hrun := onPool_of_some hpool x
  rcases hx pool _ howned (hframes table htable rfl) with
    ⟨a, next, events, hcopy, hsame, hbacked, hcontents⟩ | ⟨next, events, hcopy, hback⟩
  · rw [hcopy] at hrun
    refine ⟨pool, next, events, hpool, ?_, .inl ⟨a, hrun, ?_⟩⟩
    · exact fun other hother hid frame hframe => hcontents frame (hframes other hother hid hframe)
    · exact (h.cons_empty (h.homed table hmem)).exchange hsame hbacked
  · rw [hcopy] at hrun
    refine ⟨pool, next, events, hpool, ?_, .inr ⟨hrun, ?_, hback.leavesNoTrace howned⟩⟩
    · exact fun other hother hid frame hframe =>
        hback.contents frame (hframes other hother hid hframe)
    · exact h.withPool (fun _ _ => .rfl) fun _ => hback.handedOut

theorem balances_copy (h : Balances s loose held) (htable : table ∈ s.liveTables)
    (hx : PageTable.Copies table tableOf x)
    (hf : ∀ a t, Balances t (tableOf a :: loose) held → Balances (f a t).state loose held) :
    Balances ((onPool table.pool x >>= f) s).state loose held := by
  obtain ⟨pool, next, events, -, -, ⟨a, hrun, hnext⟩ | ⟨hrun, hnext, -⟩⟩ :=
    onPool_of_copies h htable hx
  · rw [Action.bind_of_ok hrun]
    exact hf a _ hnext
  · rw [Action.bind_of_error hrun]
    exact hnext

end CopyLive

section Erase

variable {slot : SlotId}

theorem balances_erased {changed : Session n} {old : Option PageTable} (h : Balances s loose held)
    (hpools : changed.pools = s.pools)
    (hlive : s.liveTables.Perm (old.toList ++ changed.liveTables))
    (hempty : ∀ table, old = some table → table.frames = []) : Balances changed loose held := by
  rw [Balances, hpools]
  cases old with
  | none => exact h.perm (hlive.append_left loose)
  | some table => exact (h.front hlive).forget (hempty table rfl)

theorem balances_eraseTable (h : Balances s loose held)
    (hempty : ∀ table, s.tables.get? slot = some table → table.frames = []) :
    Balances { s with tables := s.tables.erase slot } loose held :=
  balances_erased h rfl (s.liveTables_perm_erase_table slot) hempty

theorem balances_eraseSpace (h : Balances s loose held)
    (hempty : ∀ space, s.spaces.get? slot = some space → space.table.frames = []) :
    Balances { s with spaces := s.spaces.erase slot } loose held := by
  refine balances_erased h rfl (s.liveTables_perm_erase_space slot) fun table htable => ?_
  obtain ⟨space, hspace, rfl⟩ := Option.map_eq_some_iff.mp htable
  exact hempty space hspace

theorem frames_of_destroyed_table (h : Balances s loose held) {table : PageTable}
    (htable : (onTable slot PageTable.destroy s).state.tables.get? slot = some table) :
    table.frames = [] := by
  cases hfound : table? slot s with
  | none =>
      rw [onTable, Action.onSome_of_none hfound] at htable
      obtain ⟨pool, hthere⟩ := h.exists_table? htable
      rw [hthere] at hfound
      contradiction
  | some t =>
      obtain ⟨hslot, hpool⟩ := table?_eq_some_iff.mp hfound
      have hbacked := (h.front (liveTables_perm_of_table hslot)).backed hpool
      rw [onTable, Action.onSome_of_some hfound] at htable
      change (s.tables.put slot _).get? slot = _ at htable
      rw [Slots.get?_put, if_pos rfl] at htable
      obtain rfl := Option.some.inj htable
      exact hbacked.frames_destroy

theorem frames_of_destroyed_space (h : Balances s loose held)
    {x : Action (AddressSpace × FramePool) Unit}
    (hx : ∀ t, (x t).state = (AddressSpace.discard t).state) {space : AddressSpace}
    (hspace : (onSpace slot x s).state.spaces.get? slot = some space) :
    space.table.frames = [] := by
  cases hfound : space? slot s with
  | none =>
      rw [onSpace_of_none hfound] at hspace
      obtain ⟨pool, hthere⟩ := h.exists_space? hspace
      rw [hthere] at hfound
      contradiction
  | some t =>
      obtain ⟨owned, hbacked⟩ := h.exists_backed hfound
      rw [onSpace_of_some hfound, hx] at hspace
      change (s.spaces.put slot _).get? slot = _ at hspace
      rw [Slots.get?_put, if_pos rfl] at hspace
      obtain rfl := Option.some.inj hspace
      exact hbacked.frames_destroy

end Erase

end Session

end DemandPaging
