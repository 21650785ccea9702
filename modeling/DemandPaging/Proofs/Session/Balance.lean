import DemandPaging.Proofs.Conservation
import DemandPaging.Session.Run

namespace DemandPaging

def framesOn (id : PoolId) (tables : List PageTable) : List PhysicalAddress :=
  (tables.filter fun table => table.pool = id).flatMap PageTable.frames

/-- The frames that a caller has allocated directly and not released, with their pools. -/
abbrev Holdings := List (PoolId × PhysicalAddress)

def Holdings.on (held : Holdings) (id : PoolId) : List PhysicalAddress :=
  (held.filter fun item => item.1 = id).map Prod.snd

/-- Every table is well formed and lives on a pool, and every pool has handed out the frames of its
tables and those held, and no others. -/
structure Balanced (pools : Array FramePool) (tables : List PageTable) (held : Holdings) :
    Prop where
  wellFormed : ∀ table ∈ tables, table.WellFormed
  homed : ∀ table ∈ tables, table.pool < pools.size
  handedOut : ∀ (id : PoolId) (pool : FramePool), pools[id]? = some pool →
    pool.HandedOut (framesOn id tables ++ held.on id)

theorem framesOn_cons_self (table : PageTable) (rest : List PageTable) :
    framesOn table.pool (table :: rest) = table.frames ++ framesOn table.pool rest := by
  rw [framesOn, List.filter_cons_of_pos (by simp), List.flatMap_cons, framesOn]

theorem framesOn_cons_of_ne {id : PoolId} {table : PageTable} (h : table.pool ≠ id)
    (rest : List PageTable) :
    framesOn id (table :: rest) = framesOn id rest := by
  rw [framesOn, List.filter_cons_of_neg (by simpa using h), framesOn]

theorem frames_subset_framesOn {table : PageTable} {tables : List PageTable} (h : table ∈ tables) :
    table.frames ⊆ framesOn table.pool tables := by
  intro frame hframe
  rw [framesOn, List.mem_flatMap]
  exact ⟨table, List.mem_filter.mpr ⟨h, by simp⟩, hframe⟩

theorem framesOn_perm {tables others : List PageTable} (h : tables.Perm others) (id : PoolId) :
    (framesOn id tables).Perm (framesOn id others) :=
  (h.filter _).flatMap_right _

namespace Balanced

variable {pools : Array FramePool} {tables rest : List PageTable} {table : PageTable}
  {held : Holdings} {pool next : FramePool} {id : PoolId}

theorem perm (h : Balanced pools tables held) {others : List PageTable}
    (hperm : tables.Perm others) :
    Balanced pools others held where
  wellFormed table htable := h.wellFormed table (hperm.mem_iff.mpr htable)
  homed table htable := h.homed table (hperm.mem_iff.mpr htable)
  handedOut id pool hpool := (h.handedOut id pool hpool).perm
    ((framesOn_perm hperm id).append_right _)

theorem backed (h : Balanced pools (table :: rest) held) (hpool : pools[table.pool]? = some pool) :
    PageTable.Backed (framesOn table.pool rest ++ held.on table.pool) (table, pool) where
  wellFormed := h.wellFormed table List.mem_cons_self
  handedOut := by
    have hframes := h.handedOut table.pool pool hpool
    rwa [framesOn_cons_self, List.append_assoc] at hframes

theorem exists_pool (h : Balanced pools tables held) (htable : table ∈ tables) :
    ∃ pool, pools[table.pool]? = some pool :=
  ⟨_, Array.getElem?_eq_getElem (h.homed table htable)⟩

theorem withPool (h : Balanced pools tables held) {holding : Holdings}
    (hothers : ∀ other, other ≠ id → (held.on other).Perm (holding.on other))
    (hnext : pools[id]? ≠ none → next.HandedOut (framesOn id tables ++ holding.on id)) :
    Balanced (pools.setIfInBounds id next) tables holding where
  wellFormed := h.wellFormed
  homed table htable := by
    rw [Array.size_setIfInBounds]
    exact h.homed table htable
  handedOut other pool hpool := by
    rw [Array.getElem?_setIfInBounds] at hpool
    by_cases hid : id = other
    · subst hid
      rw [if_pos rfl] at hpool
      split at hpool
      · rename_i hsize
        obtain rfl := Option.some.inj hpool
        exact hnext (by simp [hsize])
      · contradiction
    · rw [if_neg hid] at hpool
      exact (h.handedOut other pool hpool).perm ((hothers other (Ne.symm hid)).append_left _)

theorem exchange (h : Balanced pools (table :: rest) held) {other : PageTable}
    (hsame : other.pool = table.pool)
    (hbacked : PageTable.Backed (framesOn table.pool rest ++ held.on table.pool) (other, next)) :
    Balanced (pools.setIfInBounds table.pool next) (other :: rest) held where
  wellFormed some hsome := by
    rcases List.mem_cons.mp hsome with rfl | hrest
    · exact hbacked.wellFormed
    · exact h.wellFormed some (List.mem_cons_of_mem _ hrest)
  homed some hsome := by
    rw [Array.size_setIfInBounds]
    rcases List.mem_cons.mp hsome with rfl | hrest
    · exact hsame ▸ h.homed table List.mem_cons_self
    · exact h.homed some (List.mem_cons_of_mem _ hrest)
  handedOut id pool hpool := by
    rw [Array.getElem?_setIfInBounds] at hpool
    by_cases hid : table.pool = id
    · subst hid
      rw [if_pos rfl, if_pos (h.homed table List.mem_cons_self)] at hpool
      obtain rfl := Option.some.inj hpool
      rw [← hsame, framesOn_cons_self, hsame, List.append_assoc]
      exact hbacked.handedOut
    · rw [if_neg hid] at hpool
      rw [framesOn_cons_of_ne (fun heq => hid (hsame.symm.trans heq))]
      have hframes := h.handedOut id pool hpool
      rwa [framesOn_cons_of_ne hid] at hframes

theorem conserve (h : Balanced pools (table :: rest) held) (hpool : pools[table.pool]? = some pool)
    {t : PageTable × FramePool} (ht : PageTable.Conserves (table, pool) t) :
    Balanced (pools.setIfInBounds table.pool t.2) (t.1 :: rest) held :=
  h.exchange (ht _ (h.backed hpool)).1 (ht _ (h.backed hpool)).2.1

theorem cons_empty (h : Balanced pools tables held) (hid : id < pools.size) :
    Balanced pools (PageTable.empty id :: tables) held where
  wellFormed some hsome := by
    rcases List.mem_cons.mp hsome with rfl | hrest
    · exact PageTable.wellFormed_empty id
    · exact h.wellFormed some hrest
  homed some hsome := by
    rcases List.mem_cons.mp hsome with rfl | hrest
    · exact hid
    · exact h.homed some hrest
  handedOut other pool hpool := by
    have hframes := h.handedOut other pool hpool
    by_cases hother : id = other
    · subst hother
      have hempty := framesOn_cons_self (PageTable.empty id) tables
      rw [PageTable.frames_empty, List.nil_append] at hempty
      exact hempty ▸ hframes
    · rwa [framesOn_cons_of_ne (show (PageTable.empty id).pool ≠ other from hother)]

theorem forget (h : Balanced pools (table :: rest) held) (hframes : table.frames = []) :
    Balanced pools rest held where
  wellFormed some hsome := h.wellFormed some (List.mem_cons_of_mem _ hsome)
  homed some hsome := h.homed some (List.mem_cons_of_mem _ hsome)
  handedOut id pool hpool := by
    have hhanded := h.handedOut id pool hpool
    by_cases hid : table.pool = id
    · subst hid
      rwa [framesOn_cons_self, hframes, List.nil_append] at hhanded
    · rwa [framesOn_cons_of_ne hid] at hhanded

end Balanced

end DemandPaging
