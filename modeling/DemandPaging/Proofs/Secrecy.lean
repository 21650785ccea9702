import DemandPaging.Proofs.Agreement
import DemandPaging.Proofs.Fault

/-!
What a process finds in a page when it is mapped. A frame is made ready before it is mapped: all its
bytes are zero, or they are those of the frame that it is a copy of. What it held before, when it
was someone else's, makes no difference to anything that is done.
-/

namespace DemandPaging

namespace Memory

variable {memory : Memory} {frame : PhysicalAddress}

theorem frame_le_size (h : memory.Holds frame) (haligned : frame.isPageAligned = true) :
    frame.word.toNat + Layout.pageSize ≤ memory.size := by
  rw [PhysicalAddress.isPageAligned_iff] at haligned
  rw [Holds, PhysicalAddress.frameIndex] at h
  simp only [size, Layout.pageSize] at *
  omega

theorem byte?_withContents_of_outside (haligned : frame.isPageAligned = true) (page : Page)
    {address : Nat}
    (h : address < frame.word.toNat ∨ frame.word.toNat + Layout.pageSize ≤ address) :
    (memory.withContents frame page).byte? address = memory.byte? address := by
  rw [PhysicalAddress.isPageAligned_iff] at haligned
  have hne : frame.frameIndex ≠ address / Layout.pageSize := by
    rw [PhysicalAddress.frameIndex]
    simp only [Layout.pageSize] at *
    omega
  rw [byte?, withContents, Array.getElem?_setIfInBounds_ne hne, byte?]

end Memory

namespace FramePool

/-- What it means that a frame was made ready for a page: it was not in use, it lies in memory, all
its bytes are zero now, and no other byte has changed. -/
structure Readies (pool next : FramePool) (frame : PhysicalAddress) : Prop where
  unused : frame ∉ pool.framesInUse
  size : next.memory.size = pool.memory.size
  inside : frame.word.toNat + Layout.pageSize ≤ next.memory.size
  zero : ∀ place : Fin Layout.pageSize, next.memory.byte? (frame.word.toNat + place) = some 0
  others : ∀ address, address < frame.word.toNat ∨ frame.word.toNat + Layout.pageSize ≤ address →
    next.memory.byte? address = pool.memory.byte? address

section Readies

variable {pool next : FramePool} {owned : List PhysicalAddress} {frame : PhysicalAddress}

theorem HandedOut.readies (h : pool.HandedOut owned)
    (hallocate : pool.allocate = (some frame, next)) :
    pool.Readies (next.withContents frame Page.zero) frame := by
  obtain ⟨hnext, hchange⟩ := h.allocate_of_some hallocate
  have haligned := hnext.isPageAligned_first
  have hholds : (next.withContents frame Page.zero).memory.Holds frame :=
    (hnext.withContents frame Page.zero).holds_first
  constructor
  case unused =>
    intro hused
    exact (List.nodup_cons.mp hnext.nodup).1 (h.framesInUse_perm.mem_iff.mp hused)
  case size =>
    rw [← hchange.memory]
    exact congrArg (· * Layout.pageSize) (Memory.size_pages_withContents _ frame Page.zero)
  case inside => exact Memory.frame_le_size hholds haligned
  case zero =>
    intro place
    rw [Memory.byte?_frame hholds haligned, hnext.contents_withContents_first Page.zero]
    simp [Page.zero]
  case others =>
    intro address houtside
    rw [← hchange.memory]
    exact Memory.byte?_withContents_of_outside haligned Page.zero houtside

end Readies

/-- Pools that differ only in the bytes of frames that are not in use. -/
structure AgreesInUse (pool other : FramePool) : Prop where
  eq_withMemory : other = { pool with memory := other.memory }
  size : other.memory.pages.size = pool.memory.pages.size
  contents : ∀ frame ∈ pool.framesInUse, other.memory.contents frame = pool.memory.contents frame

theorem allocate_withMemory (pool : FramePool) (memory : Memory) :
    ({ pool with memory } : FramePool).allocate =
      (pool.allocate.1, { pool.allocate.2 with memory }) := by
  rcases pool with ⟨old, - | ⟨frame, rest⟩, fresh, inUse, allocations, releases⟩
  · by_cases hroom : fresh < inUse.size
    · simp [allocate, limit, hroom]
    · simp [allocate, limit, hroom]
  · rfl

theorem takeBackAll_withMemory (pool : FramePool) (memory : Memory)
    (frames : List PhysicalAddress) :
    ({ pool with memory } : FramePool).takeBackAll frames =
      { pool.takeBackAll frames with memory } := by
  induction frames generalizing pool with
  | nil => rfl
  | cons frame rest ih => exact ih (pool.takeBack frame)

namespace AgreesInUse

variable {pool other next : FramePool} {owned frames : List PhysicalAddress}
  {frame : PhysicalAddress}

theorem handedOut (h : pool.AgreesInUse other) (howned : pool.HandedOut owned) :
    other.HandedOut owned := by
  rw [h.eq_withMemory]
  exact howned.withMemory h.size

theorem limit_eq (h : pool.AgreesInUse other) : other.limit = pool.limit := by
  rw [h.eq_withMemory]
  rfl

theorem contents_of_mem (h : pool.AgreesInUse other) (howned : pool.HandedOut owned)
    (hmem : frame ∈ owned) : other.memory.contents frame = pool.memory.contents frame :=
  h.contents frame (howned.framesInUse_perm.mem_iff.mpr hmem)

theorem allocate_eq (h : pool.AgreesInUse other) :
    other.allocate = (pool.allocate.1, { pool.allocate.2 with memory := other.memory }) := by
  rw [h.eq_withMemory]
  exact allocate_withMemory pool other.memory

theorem withContents (h : pool.AgreesInUse other) (howned : pool.HandedOut owned)
    (hallocate : pool.allocate = (some frame, next)) (page : Page) :
    (next.withContents frame page).AgreesInUse
      (({ next with memory := other.memory } : FramePool).withContents frame page) := by
  obtain ⟨hnext, hchange⟩ := howned.allocate_of_some hallocate
  have hsize : other.memory.pages.size = next.memory.pages.size := by
    rw [h.size, hchange.memory]
  have hlast : ({ next with memory := other.memory } : FramePool).HandedOut (frame :: owned) :=
    hnext.withMemory hsize
  refine ⟨rfl, ?_, ?_⟩
  · exact (Memory.size_pages_withContents _ _ _).trans
      (hsize.trans (Memory.size_pages_withContents _ _ _).symm)
  · intro used hused
    rcases List.mem_cons.mp ((hnext.withContents frame page).framesInUse_perm.mem_iff.mp hused) with
      rfl | hold
    · rw [hlast.contents_withContents_first page, hnext.contents_withContents_first page]
    · rw [hlast.contents_withContents page hold, hnext.contents_withContents page hold,
        hchange.memory]
      exact h.contents_of_mem howned hold

theorem takeBackAll (h : pool.AgreesInUse other) (howned : pool.HandedOut (frames ++ owned)) :
    (pool.takeBackAll frames).AgreesInUse (other.takeBackAll frames) := by
  have hother : other.takeBackAll frames =
      { pool.takeBackAll frames with memory := other.memory } := by
    rw [h.eq_withMemory]
    exact takeBackAll_withMemory pool other.memory frames
  rw [hother]
  refine ⟨rfl, ?_, ?_⟩
  · rw [memory_takeBackAll]
    exact h.size
  · intro frame hused
    rw [memory_takeBackAll]
    exact h.contents_of_mem howned
      (List.mem_append_right frames (howned.takeBackAll.framesInUse_perm.mem_iff.mp hused))

end AgreesInUse

def AlikeInUse {σ : Type} (t u : σ × FramePool) : Prop :=
  u.1 = t.1 ∧ t.2.AgreesInUse u.2

end FramePool

namespace PageTable

open FramePool (AlikeInUse)

variable {table : PageTable} {pool other : FramePool} {owned : List PhysicalAddress}

theorem readies_createEntry (h : table.WellFormed) (howned : pool.HandedOut owned)
    {page : PageNumber} {dirty : Bool} {entry : PageEntry}
    (hcreated : (createEntry page dirty (table, pool)).result = .ok entry) :
    (createEntry page dirty (table, pool)).state.1.find? page = some entry ∧
      pool.Readies (createEntry page dirty (table, pool)).state.2 entry.frame := by
  cases hmapped : table.contains page with
  | true =>
      rw [createEntry_of_mapped dirty hmapped] at hcreated
      cases hcreated
  | false =>
      rcases hallocate : pool.allocate with ⟨- | frame, next⟩
      · rw [createEntry_of_none h dirty hmapped (congrArg Prod.fst hallocate)] at hcreated
        cases hcreated
      · have hcreate := createEntry_of_some h dirty howned hmapped hallocate
        rw [hcreate] at hcreated ⊢
        obtain rfl : .fresh frame dirty = entry := Except.ok.inj hcreated
        have hnext := (howned.allocate_of_some hallocate).1
        rw [PageEntry.frame_fresh hnext.isPageAligned_first]
        exact ⟨(find?_mapping h page _ page).trans (if_pos rfl), howned.readies hallocate⟩

theorem alike_createEntry (h : table.WellFormed) (howned : pool.HandedOut owned)
    (hagrees : pool.AgreesInUse other) (page : PageNumber) (dirty : Bool) :
    Outcome.Agrees AlikeInUse Eq (createEntry page dirty (table, pool))
      (createEntry page dirty (table, other)) := by
  have hother := hagrees.handedOut howned
  have hlast := hagrees.allocate_eq
  cases hmapped : table.contains page with
  | true =>
      rw [createEntry_of_mapped dirty hmapped, createEntry_of_mapped dirty hmapped]
      exact .stopped _ ⟨rfl, hagrees⟩ rfl
  | false =>
      rcases hallocate : pool.allocate with ⟨- | frame, next⟩
      · rw [hallocate] at hlast
        rw [createEntry_of_none h dirty hmapped (congrArg Prod.fst hallocate),
          createEntry_of_none h dirty hmapped (congrArg Prod.fst hlast)]
        exact .stopped _ ⟨rfl, hagrees⟩ rfl
      · rw [hallocate] at hlast
        rw [createEntry_of_some h dirty howned hmapped hallocate,
          createEntry_of_some h dirty hother hmapped hlast]
        exact .done rfl ⟨rfl, hagrees.withContents howned hallocate Page.zero⟩ rfl

section Copy

variable {items : List (PageNumber × PageEntry)}

theorem alike_copyEntries (h : table.WellFormed) (howned : pool.HandedOut (table.frames ++ owned))
    (hitems : Copyable items owned table) (hagrees : pool.AgreesInUse other) :
    Outcome.Agrees AlikeInUse Eq (copyEntries items (table, pool))
      (copyEntries items (table, other)) := by
  induction items generalizing table pool other with
  | nil => exact .done rfl ⟨rfl, hagrees⟩ rfl
  | cons item rest ih =>
      obtain ⟨page, entry⟩ := item
      have hother := hagrees.handedOut howned
      have hsource : entry.frame ∈ table.frames ++ owned :=
        List.mem_append_right _ (hitems.sources _ List.mem_cons_self)
      rw [copyEntries]
      rcases Nat.lt_or_eq_of_le howned.length_le with hroom | hfull
      · obtain ⟨frame, next, hallocate, -⟩ := howned.allocate_of_room hroom
        have hlast := hagrees.allocate_eq
        rw [hallocate] at hlast
        have hone := copyEntry_of_some page h howned hsource hallocate
        have hsame := copyEntry_of_some page h hother hsource hlast
        rw [hagrees.contents_of_mem howned hsource] at hsame
        obtain ⟨after, events, hcopy, hstep, hrest, -⟩ :=
          copyEntry_of_copyable h howned hitems hroom
        obtain rfl := congrArg Outcome.state (hcopy.symm.trans hone)
        rw [Action.bind_of_ok hone, Action.bind_of_ok hsame]
        exact (ih hstep.wellFormed hstep.handedOut hrest
          (hagrees.withContents howned hallocate _)).after rfl
      · rw [Action.bind_of_error (copyEntry_of_full page entry howned hfull),
          Action.bind_of_error
            (copyEntry_of_full page entry hother (hfull.trans hagrees.limit_eq.symm))]
        exact .stopped _ ⟨rfl, hagrees⟩ rfl

theorem handedOut_copyEntries (h : table.WellFormed)
    (howned : pool.HandedOut (table.frames ++ owned)) (hitems : Copyable items owned table) :
    (copyEntries items (table, pool)).state.2.HandedOut
      ((copyEntries items (table, pool)).state.1.frames ++ owned) := by
  rcases Nat.lt_or_ge pool.limit ((table.frames ++ owned).length + items.length) with
    hshort | hroom
  · obtain ⟨done, after, events, hcopies, -, hafter, -⟩ :=
      copyEntries_of_short h howned hitems hshort
    rw [hcopies]
    exact hafter.handedOut
  · obtain ⟨after, events, hcopies, hafter⟩ := copyEntries_of_room h howned hitems hroom
    rw [hcopies]
    exact hafter.handedOut

theorem agrees_copy (h : table.WellFormed) (howned : pool.HandedOut owned)
    (hframes : table.frames ⊆ owned) (hagrees : pool.AgreesInUse other) :
    Outcome.Agrees FramePool.AgreesInUse Eq (table.copy pool) (table.copy other) := by
  have hempty : pool.HandedOut ((empty table.pool).frames ++ owned) := by rwa [frames_empty]
  have hitems := copyable_mappedPages h hframes
  have hfill := alike_copyEntries (wellFormed_empty table.pool) hempty hitems hagrees
  have hfilled := handedOut_copyEntries (wellFormed_empty table.pool) hempty hitems
  rw [copy, Action.build, Action.build]
  generalize copyEntries table.mappedPages (empty table.pool, pool) = one,
    copyEntries table.mappedPages (empty table.pool, other) = another at hfill hfilled
  cases hfill with
  | @done a b t u events others hresults hstates hinstalls =>
      obtain ⟨target, next⟩ := t
      obtain ⟨same, last⟩ := u
      obtain ⟨rfl, hnext⟩ := hstates
      exact .done rfl hnext hinstalls
  | @stopped reason t u events others hstates hinstalls =>
      obtain ⟨target, next⟩ := t
      obtain ⟨same, last⟩ := u
      obtain ⟨rfl, hnext⟩ := hstates
      have hlast := hnext.handedOut hfilled
      simp only [destroy_eq hfilled, destroy_eq hlast]
      exact .stopped reason (hnext.takeBackAll hfilled)
        (by rw [installs_append, installs_append, hinstalls])

theorem sameBytes_copy (h : table.WellFormed) (howned : pool.HandedOut owned)
    (hframes : table.frames ⊆ owned) {target : PageTable}
    (hcopy : (table.copy pool).result = .ok target) {page : PageNumber} {copied : PageEntry}
    (hcopied : target.find? page = some copied) :
    ∃ entry, table.find? page = some entry ∧
      pool.memory.SameBytes entry.frame (table.copy pool).state.memory copied.frame := by
  rcases Nat.lt_or_ge pool.limit (owned.length + table.mappedCount) with hshort | hroom
  · obtain ⟨next, events, hfailed, -⟩ := copy_of_short h howned hframes hshort
    rw [hfailed] at hcopy
    cases hcopy
  · obtain ⟨made, next, events, hmade, hafter⟩ := copy_of_room h howned hframes hroom
    rw [hmade] at hcopy ⊢
    obtain rfl := Except.ok.inj hcopy
    have hmapped : table.contains page = true := by
      rw [← hafter.contains_copy page, contains, hcopied]
      rfl
    obtain ⟨entry, hentry⟩ := Option.isSome_iff_exists.mp hmapped
    obtain ⟨found, hfound, -, -, hcontents⟩ := hafter.find?_copy hentry
    obtain rfl := Option.some.inj (hcopied.symm.trans hfound)
    exact ⟨entry, hentry, howned.sameBytes_of_mem hafter.handedOut
      (hframes (frame_mem_frames hentry))
      (List.mem_append_left owned (frame_mem_frames hcopied)) hcontents⟩

end Copy

/-- What a table does with the frames that it maps. A page is mapped to a frame that was made ready,
or to one with the bytes of the page that it is copied from. The bytes of frames that are not in use
make no difference to what is done. -/
structure HidesOldBytes (table : PageTable) (pool : FramePool) : Prop where
  created : ∀ page dirty entry, (createEntry page dirty (table, pool)).result = .ok entry →
    (createEntry page dirty (table, pool)).state.1.find? page = some entry ∧
      pool.Readies (createEntry page dirty (table, pool)).state.2 entry.frame
  copied : ∀ target page entry, (table.copy pool).result = .ok target →
    target.find? page = some entry → ∃ source, table.find? page = some source ∧
      pool.memory.SameBytes source.frame (table.copy pool).state.memory entry.frame
  createdAlike : ∀ other, pool.AgreesInUse other → ∀ page dirty,
    Outcome.Agrees AlikeInUse Eq (createEntry page dirty (table, pool))
      (createEntry page dirty (table, other))
  copiedAlike : ∀ other, pool.AgreesInUse other →
    Outcome.Agrees FramePool.AgreesInUse Eq (table.copy pool) (table.copy other)

theorem Backed.hidesOldBytes (h : Backed owned (table, pool)) : table.HidesOldBytes pool := by
  have hwellFormed : table.WellFormed := h.wellFormed
  have howned : pool.HandedOut (table.frames ++ owned) := h.handedOut
  have hframes : table.frames ⊆ table.frames ++ owned := List.subset_append_left table.frames owned
  constructor
  case created => exact fun page dirty entry => readies_createEntry hwellFormed howned
  case copied =>
    exact fun target page entry hcopy => sameBytes_copy hwellFormed howned hframes hcopy
  case createdAlike => exact fun other => alike_createEntry hwellFormed howned
  case copiedAlike => exact fun other => agrees_copy hwellFormed howned hframes

end PageTable

namespace AddressSpace

open FramePool (AlikeInUse)

variable {space : AddressSpace} {pool other : FramePool} {owned : List PhysicalAddress}

theorem alike_resolve (h : PageTable.Backed owned (space.table, pool))
    (hagrees : pool.AgreesInUse other) (access : Access) (address : VirtualAddress) :
    Outcome.Agrees AlikeInUse Eq (resolve access address.pageNumber (space, pool))
      (resolve access address.pageNumber (space, other)) := by
  have hquiet := (aloof_resolve access address.pageNumber).quiet
  have hother := hagrees.handedOut h.handedOut
  rcases denied_or_granted space access address.pageNumber with
    hdenied | ⟨region, hdeciding, hallowed⟩
  · obtain ⟨events, hone⟩ := resolve_of_denied pool hdenied
    obtain ⟨others, hsame⟩ := resolve_of_denied other hdenied
    exact .of_quiet_error hquiet hquiet hone hsame ⟨rfl, hagrees⟩
  · cases hmapped : space.table.contains address.pageNumber with
    | true =>
        obtain ⟨entry, hentry⟩ := Option.isSome_iff_exists.mp hmapped
        exact .of_quiet_ok hquiet hquiet (resolve_of_mapped hdeciding hallowed hentry)
          (resolve_of_mapped hdeciding hallowed hentry) rfl ⟨rfl, hagrees⟩
    | false =>
        rcases Nat.lt_or_eq_of_le h.handedOut.length_le with hroom | hfull
        · obtain ⟨frame, next, hallocate, -⟩ := h.handedOut.allocate_of_room hroom
          have hlast := hagrees.allocate_eq
          rw [hallocate] at hlast
          obtain ⟨events, hone⟩ :=
            resolve_of_some hdeciding hallowed h.wellFormed h.handedOut hmapped hallocate
          obtain ⟨others, hsame⟩ :=
            resolve_of_some hdeciding hallowed h.wellFormed hother hmapped hlast
          exact .of_quiet_ok hquiet hquiet hone hsame rfl
            ⟨rfl, hagrees.withContents h.handedOut hallocate Page.zero⟩
        · obtain ⟨events, hone⟩ :=
            resolve_of_full hdeciding hallowed h.wellFormed h.handedOut hmapped hfull
          obtain ⟨others, hsame⟩ := resolve_of_full hdeciding hallowed h.wellFormed hother hmapped
            (hfull.trans hagrees.limit_eq.symm)
          exact .of_quiet_error hquiet hquiet hone hsame ⟨rfl, hagrees⟩

theorem sameBytes_copy (h : PageTable.Backed owned (space.table, pool)) {target : AddressSpace}
    (hcopy : (space.copy pool).result = .ok target) {page : PageNumber} {copied : PageEntry}
    (hcopied : target.table.find? page = some copied) :
    ∃ entry, space.table.find? page = some entry ∧
      pool.memory.SameBytes entry.frame (space.copy pool).state.memory copied.frame := by
  rcases hrun : space.table.copy pool with ⟨reason | table, next, events⟩
  · rw [copy_of_error hrun] at hcopy
    cases hcopy
  · rw [copy_of_ok hrun] at hcopy ⊢
    obtain rfl := Except.ok.inj hcopy
    have hcopies : (space.table.copy pool).result = .ok table := by rw [hrun]
    have hsame := h.hidesOldBytes.copied table page copied hcopies hcopied
    rwa [hrun] at hsame

theorem agrees_copy (h : PageTable.Backed owned (space.table, pool))
    (hagrees : pool.AgreesInUse other) :
    Outcome.Agrees FramePool.AgreesInUse Eq (space.copy pool) (space.copy other) := by
  rw [copy]
  refine (h.hidesOldBytes.copiedAlike other hagrees).bind ?_
  rintro table _ next last rfl hnext
  exact .done rfl hnext rfl

end AddressSpace

namespace Context

variable {n : Nat} {processor : Processor n} {access : Access} {word : UInt64}
  {space : AddressSpace} {pool other : FramePool} {owned : List PhysicalAddress}

theorem readies_handleFault (h : PageTable.Backed owned (space.table, pool))
    (hunmapped : space.table.contains ⟨word / Layout.pageBytes⟩ = false) {machines : Machines n}
    (hserved :
      (handleFault processor access word (some (space, pool), machines)).result = .ok ()) :
    ∃ next last entry,
      (handleFault processor access word (some (space, pool), machines)).state.1 =
        some (next, last) ∧
      next.table.find? ⟨word / Layout.pageBytes⟩ = some entry ∧ pool.Readies last entry.frame := by
  obtain ⟨address, region, hgranted⟩ := granted_of_not_denied (not_denied_of_served hserved)
  rw [← page_of_granted hgranted] at hunmapped ⊢
  rcases Nat.lt_or_eq_of_le h.handedOut.length_le with hroom | hfull
  · obtain ⟨frame, next, hallocate, -⟩ := h.handedOut.allocate_of_room hroom
    obtain ⟨events, hresolve⟩ := AddressSpace.resolve_of_some hgranted.deciding hgranted.allowed
      h.wellFormed h.handedOut hunmapped hallocate
    have hnext := (h.handedOut.allocate_of_some hallocate).1
    rw [handleFault_of_granted processor machines hgranted, serve, Action.run_bind,
      Action.run_first, hresolve]
    refine ⟨_, _, .fresh frame region.permissions.writable, rfl, ?_, ?_⟩
    · exact (PageTable.find?_mapping h.wellFormed _ _ _).trans (if_pos rfl)
    · rw [PageEntry.frame_fresh hnext.isPageAligned_first]
      exact h.handedOut.readies hallocate
  · obtain ⟨events, hfault⟩ := handleFault_of_full processor machines hgranted h hunmapped hfull
    rw [hfault] at hserved
    cases hserved

theorem related_handleFault (h : PageTable.Backed owned (space.table, pool))
    (hagrees : pool.AgreesInUse other) (processor : Processor n) (machines : Machines n)
    (access : Access) (word : UInt64) :
    Outcome.Agrees (Related FramePool.AlikeInUse Eq) Eq
      (handleFault processor access word (some (space, pool), machines))
      (handleFault processor access word (some (space, other), machines)) := by
  refine agrees_handleFault processor ?_ ⟨rfl, hagrees⟩ rfl word
    fun address _ => AddressSpace.alike_resolve h hagrees access address
  rintro mapping another rfl
  exact .of_same _ rfl _

end Context

/-- What a space does with the frames of its pages, be it on its own or when a process faults. -/
structure AddressSpace.HidesOldBytes (space : AddressSpace) (pool : FramePool) : Prop where
  table : space.table.HidesOldBytes pool
  copied : ∀ target page entry, (space.copy pool).result = .ok target →
    target.table.find? page = some entry → ∃ source, space.table.find? page = some source ∧
      pool.memory.SameBytes source.frame (space.copy pool).state.memory entry.frame
  copiedAlike : ∀ other, pool.AgreesInUse other →
    Outcome.Agrees FramePool.AgreesInUse Eq (space.copy pool) (space.copy other)
  faulted : ∀ {n : Nat} (processor : Processor n) (machines : Machines n) access word,
    space.table.contains ⟨word / Layout.pageBytes⟩ = false →
      (Context.handleFault processor access word (some (space, pool), machines)).result = .ok () →
        ∃ next last entry,
          (Context.handleFault processor access word (some (space, pool), machines)).state.1 =
            some (next, last) ∧
          next.table.find? ⟨word / Layout.pageBytes⟩ = some entry ∧ pool.Readies last entry.frame
  faultedAlike : ∀ other, pool.AgreesInUse other →
    ∀ {n : Nat} (processor : Processor n) (machines : Machines n) access word,
      Outcome.Agrees (Context.Related FramePool.AlikeInUse Eq) Eq
        (Context.handleFault processor access word (some (space, pool), machines))
        (Context.handleFault processor access word (some (space, other), machines))

theorem PageTable.Backed.hidesOldBytes_space {owned : List PhysicalAddress} {space : AddressSpace}
    {pool : FramePool} (h : Backed owned (space.table, pool)) : space.HidesOldBytes pool where
  table := h.hidesOldBytes
  copied _ _ _ hcopy hcopied := AddressSpace.sameBytes_copy h hcopy hcopied
  copiedAlike _ := AddressSpace.agrees_copy h
  faulted _ _ _ _ hunmapped hserved := Context.readies_handleFault h hunmapped hserved
  faultedAlike _ hagrees := Context.related_handleFault h hagrees

end DemandPaging
