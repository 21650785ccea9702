import DemandPaging.Fault
import DemandPaging.Proofs.Declarations

namespace DemandPaging

namespace PageTable

/-- A table is backed by a pool if it is well formed and its frames are handed out, together with
frames that others own. -/
structure Backed (owned : List PhysicalAddress) (t : PageTable × FramePool) : Prop where
  wellFormed : t.1.WellFormed
  handedOut : t.2.HandedOut (t.1.frames ++ owned)

/-- Whatever others own, a backed table stays backed and stays with its pool, and the frames of
others hold the same bytes. -/
def Conserves (before after : PageTable × FramePool) : Prop :=
  ∀ owned, Backed owned before → after.1.pool = before.1.pool ∧ Backed owned after ∧
    ∀ frame ∈ owned, after.2.memory.contents frame = before.2.memory.contents frame

variable {table : PageTable} {pool : FramePool} {owned : List PhysicalAddress}

theorem Conserves.refl (t : PageTable × FramePool) : Conserves t t :=
  fun _ h => ⟨rfl, h, fun _ _ => rfl⟩

theorem Backed.withBlock (h : Backed owned (table, pool)) (first : FirstIndex) :
    Backed owned (table.withBlock first, pool) where
  wellFormed := wellFormed_withBlock h.wellFormed first
  handedOut := (frames_withBlock table first).symm ▸ h.handedOut

theorem conserves_withBlock (table : PageTable) (first : FirstIndex) (pool : FramePool) :
    Conserves (table, pool) (table.withBlock first, pool) :=
  fun _ h => ⟨pool_withBlock table first, h.withBlock first, fun _ _ => rfl⟩

theorem Backed.mapping (h : Backed owned (table, pool)) {page : PageNumber}
    (hunmapped : table.contains page = false) {frame : PhysicalAddress} {next : FramePool}
    (hnext : next.HandedOut (frame :: (table.frames ++ owned))) {entry : PageEntry}
    (hframe : entry.frame = frame) (hvalid : entry.isValid = true) :
    Backed owned (table.mapping page entry, next) where
  wellFormed := wellFormed_mapping h.wellFormed page entry hvalid
  handedOut := by
    have hframes := frames_mapping_perm h.wellFormed entry (contains_eq_false_iff.mp hunmapped)
    rw [hframe] at hframes
    exact hnext.perm (hframes.append_right owned).symm

theorem Backed.mapping_fresh (h : Backed owned (table, pool)) {page : PageNumber}
    (hunmapped : table.contains page = false) {frame : PhysicalAddress} {next : FramePool}
    (hnext : next.HandedOut (frame :: (table.frames ++ owned))) (dirty : Bool) :
    Backed owned (table.mapping page (.fresh frame dirty), next.withContents frame Page.zero) := by
  exact h.mapping hunmapped (hnext.withContents frame Page.zero)
    (PageEntry.frame_fresh hnext.isPageAligned_first dirty) (PageEntry.isValid_fresh frame dirty)

theorem conserves_mapping_fresh {page : PageNumber} (hunmapped : table.contains page = false)
    {frame : PhysicalAddress} {next : FramePool} (h : Backed owned (table, pool))
    (hnext : next.HandedOut (frame :: (table.frames ++ owned))) (hchange : pool.Allocates next)
    (dirty : Bool) :
    (table.mapping page (.fresh frame dirty)).pool = table.pool ∧
      Backed owned (table.mapping page (.fresh frame dirty), next.withContents frame Page.zero) ∧
      ∀ other ∈ owned, (next.withContents frame Page.zero).memory.contents other =
        pool.memory.contents other := by
  refine ⟨pool_mapping table page _, h.mapping_fresh hunmapped hnext dirty, ?_⟩
  intro other hother
  rw [hnext.contents_withContents _ (List.mem_append_right table.frames hother), hchange.memory]

theorem conserves_createEntry (page : PageNumber) (dirty : Bool) (t : PageTable × FramePool) :
    Conserves t (createEntry page dirty t).state := by
  rcases t with ⟨table, pool⟩
  intro owned h
  cases hmapped : table.contains page with
  | true =>
      rw [createEntry_of_mapped dirty hmapped]
      exact Conserves.refl _ owned h
  | false =>
      rcases Nat.lt_or_eq_of_le h.handedOut.length_le with hroom | hfull
      · obtain ⟨frame, next, events, hcreate, hnext, hchange⟩ :=
          createEntry_of_room h.wellFormed dirty h.handedOut hmapped hroom
        rw [hcreate]
        exact conserves_mapping_fresh hmapped h hnext hchange dirty
      · rw [createEntry_of_full h.wellFormed dirty h.handedOut hmapped hfull]
        exact conserves_withBlock table page.firstIndex pool owned h

theorem conserves_ensureBlock (first : UInt64) (t : PageTable × FramePool) :
    Conserves t ((ensureBlock first t.1).state, t.2) := by
  rcases t with ⟨table, pool⟩
  rcases ensureBlock_state first table with hstate | ⟨place, hstate⟩
  · rw [hstate]
    exact Conserves.refl _
  · rw [hstate]
    exact conserves_withBlock table place pool

theorem backed_empty (id : PoolId) (h : pool.HandedOut owned) : Backed owned (empty id, pool) := by
  have hempty : pool.HandedOut ((empty id).frames ++ owned) := by rwa [frames_empty]
  exact ⟨wellFormed_empty id, hempty⟩

theorem conserves_destroy (t : PageTable × FramePool) : Conserves t (destroy t).state := by
  rcases t with ⟨table, pool⟩
  intro owned h
  obtain ⟨events, hdestroy⟩ := destroy_of_handedOut h.handedOut
  rw [hdestroy]
  refine ⟨rfl, backed_empty table.pool h.handedOut.takeBackAll, fun frame _ => ?_⟩
  rw [FramePool.memory_takeBackAll]

theorem Backed.frames_destroy {t : PageTable × FramePool} (h : Backed owned t) :
    (destroy t).state.1.frames = [] := by
  obtain ⟨events, hdestroy⟩ := destroy_of_handedOut h.handedOut
  rw [hdestroy]
  exact frames_empty t.1.pool

/-- How a copy of a table ends, whatever others own. Either it is made and backed by the pool, or
memory has run out and all that was taken for it is given back. The frames of others hold the same
bytes in both cases. -/
def Copies {α : Type} (table : PageTable) (tableOf : α → PageTable) (x : Action FramePool α) :
    Prop :=
  ∀ pool owned, pool.HandedOut owned → table.frames ⊆ owned →
    (∃ a next events, x pool = ⟨.ok a, next, events⟩ ∧ (tableOf a).pool = table.pool ∧
        Backed owned (tableOf a, next) ∧
        ∀ frame ∈ owned, next.memory.contents frame = pool.memory.contents frame) ∨
      ∃ next events, x pool = ⟨.error (.refused .outOfMemory), next, events⟩ ∧
        pool.GivesBack owned next

theorem copies_copy (h : table.WellFormed) : Copies table id table.copy := by
  intro pool owned howned hframes
  rcases Nat.lt_or_ge pool.limit (owned.length + table.mappedCount) with hshort | hroom
  · exact .inr (copy_of_short h howned hframes hshort)
  · obtain ⟨target, next, events, hcopy, hafter⟩ := copy_of_room h howned hframes hroom
    exact .inl ⟨target, next, events, hcopy, hafter.pool, ⟨hafter.wellFormed, hafter.handedOut⟩,
      fun frame hframe => hafter.contents frame (List.mem_append_right _ hframe)⟩

end PageTable

namespace AddressSpace

def part (s : AddressSpace × FramePool) : PageTable × FramePool :=
  (s.1.table, s.2)

theorem conserves_resolve (access : Access) (address : VirtualAddress)
    (s : AddressSpace × FramePool) :
    PageTable.Conserves (part s) (part (resolve access address.pageNumber s).state) := by
  rcases s with ⟨space, pool⟩
  intro owned h
  have hbacked : PageTable.Backed owned (space.table, pool) := h
  rcases denied_or_granted space access address.pageNumber with
    hdenied | ⟨region, hregion, hallowed⟩
  · obtain ⟨events, hresolve⟩ := resolve_of_denied pool hdenied
    rw [hresolve]
    exact PageTable.Conserves.refl _ owned h
  · cases hmapped : space.table.contains address.pageNumber with
    | true =>
        obtain ⟨entry, hentry⟩ := Option.isSome_iff_exists.mp hmapped
        rw [resolve_of_mapped hregion hallowed hentry]
        exact PageTable.Conserves.refl _ owned h
    | false =>
        rcases Nat.lt_or_eq_of_le hbacked.handedOut.length_le with hroom | hfull
        · obtain ⟨frame, next, events, hresolve, hnext, hchange⟩ :=
            resolve_of_room hregion hallowed hbacked.wellFormed hbacked.handedOut hmapped hroom
          rw [hresolve]
          exact PageTable.conserves_mapping_fresh hmapped hbacked hnext hchange _
        · obtain ⟨events, hresolve⟩ :=
            resolve_of_full hregion hallowed hbacked.wellFormed hbacked.handedOut hmapped hfull
          rw [hresolve]
          exact PageTable.conserves_withBlock _ _ _ owned hbacked

theorem conserves_discard (s : AddressSpace × FramePool) :
    PageTable.Conserves (part s) (part (discard s).state) :=
  PageTable.conserves_destroy (part s)

theorem result_discard {s : AddressSpace × FramePool} {owned : List PhysicalAddress}
    (h : PageTable.Backed owned (part s)) : (discard s).result = .ok () := by
  obtain ⟨events, hdestroy⟩ := PageTable.destroy_of_handedOut h.handedOut
  exact congrArg Outcome.result hdestroy

theorem result_destroy {s : AddressSpace × FramePool} {owned : List PhysicalAddress}
    (h : PageTable.Backed owned (part s)) : (destroy s).result = .ok () :=
  result_discard h

section Declarations

variable {n : Nat}

theorem table_endLoad (processor : Processor n) (t : AddressSpace × Machines n) :
    (endLoad processor t).state.1.table = t.1.table := by
  rcases t with ⟨space, machines⟩
  by_cases hloading : space.loading
  · simp [endLoad, hloading, Outcome.after]
    cases (processor.invalidate machines).result <;> rfl
  · simp [endLoad, hloading]

theorem conserves_first {α : Type} {x : Action AddressSpace α} (hx : Blind x)
    (t : AddressSpace × FramePool) :
    PageTable.Conserves (part t) (part (Action.first x t).state) := by
  have hpart : part (Action.first x t).state = part t := congrArg (·, t.2) (hx.table t.1)
  rw [hpart]
  exact PageTable.Conserves.refl _

end Declarations

theorem copies_copy {space : AddressSpace} (h : space.table.WellFormed) :
    PageTable.Copies space.table AddressSpace.table space.copy := by
  intro pool owned howned hframes
  rcases PageTable.copies_copy h pool owned howned hframes with
    ⟨target, next, events, hcopy, hmade⟩ | ⟨next, events, hcopy, hback⟩
  · exact .inl ⟨{ space with table := target }, next, _, copy_of_ok hcopy, hmade⟩
  · exact .inr ⟨next, events, copy_of_error hcopy, hback⟩

end AddressSpace

end DemandPaging
