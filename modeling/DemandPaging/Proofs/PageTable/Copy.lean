import DemandPaging.Proofs.PageTable.Operations

namespace DemandPaging

namespace PageTable

/-- What it means that a table and its pool have taken in copies of some pages. The frames of the
table are handed out together with others, the owned ones. -/
structure TakesIn (items : List (PageNumber × PageEntry)) (owned : List PhysicalAddress)
    (before after : PageTable × FramePool) : Prop where
  wellFormed : after.1.WellFormed
  pool : after.1.pool = before.1.pool
  handedOut : after.2.HandedOut (after.1.frames ++ owned)
  frames : before.1.frames ⊆ after.1.frames
  copied : ∀ item ∈ items, ∃ entry, after.1.find? item.1 = some entry ∧ entry.isValid = true ∧
    entry.isDirty = item.2.isDirty ∧
    after.2.memory.contents entry.frame = before.2.memory.contents item.2.frame
  others : ∀ page : PageNumber, page.place ∉ items.map (fun item => item.1.place) →
    after.1.find? page = before.1.find? page
  contents : ∀ frame ∈ before.1.frames ++ owned,
    after.2.memory.contents frame = before.2.memory.contents frame
  limit : after.2.limit = before.2.limit
  allocations : after.2.allocations = before.2.allocations + items.length
  releases : after.2.releases = before.2.releases

namespace TakesIn

variable {items rest : List (PageNumber × PageEntry)} {owned : List PhysicalAddress}
  {first second third : PageTable × FramePool}

theorem nil (h : first.1.WellFormed) (howned : first.2.HandedOut (first.1.frames ++ owned)) :
    TakesIn [] owned first first where
  wellFormed := h
  pool := rfl
  handedOut := howned
  frames := List.Subset.refl _
  copied := by simp
  others _ _ := rfl
  contents _ _ := rfl
  limit := rfl
  allocations := rfl
  releases := rfl

theorem append (h : TakesIn items owned first second) (hrest : TakesIn rest owned second third)
    (hplaces : ∀ item ∈ items, item.1.place ∉ rest.map fun item => item.1.place)
    (hsources : ∀ item ∈ rest, item.2.frame ∈ owned) :
    TakesIn (items ++ rest) owned first third where
  wellFormed := hrest.wellFormed
  pool := hrest.pool.trans h.pool
  handedOut := hrest.handedOut
  frames := List.Subset.trans h.frames hrest.frames
  copied := by
    intro item hitem
    rcases List.mem_append.mp hitem with hitem | hitem
    · obtain ⟨entry, hfind, hvalid, hdirty, hcontents⟩ := h.copied item hitem
      have hkept := hrest.contents entry.frame (List.mem_append_left _ (frame_mem_frames hfind))
      exact ⟨entry, (hrest.others _ (hplaces item hitem)).trans hfind, hvalid, hdirty,
        hkept.trans hcontents⟩
    · obtain ⟨entry, hfind, hvalid, hdirty, hcontents⟩ := hrest.copied item hitem
      have hkept := h.contents item.2.frame (List.mem_append_right _ (hsources item hitem))
      exact ⟨entry, hfind, hvalid, hdirty, hcontents.trans hkept⟩
  others := by
    intro page hpage
    rw [List.map_append, List.mem_append, not_or] at hpage
    exact (hrest.others page hpage.2).trans (h.others page hpage.1)
  contents := by
    intro frame hframe
    rcases List.mem_append.mp hframe with hin | hin
    · exact (hrest.contents frame (List.mem_append_left _ (h.frames hin))).trans
        (h.contents frame hframe)
    · exact (hrest.contents frame (List.mem_append_right _ hin)).trans (h.contents frame hframe)
  limit := hrest.limit.trans h.limit
  allocations := by
    rw [hrest.allocations, h.allocations, List.length_append, Nat.add_assoc]
  releases := hrest.releases.trans h.releases

theorem withBlock (h : TakesIn items owned first second) (place : FirstIndex) :
    TakesIn items owned first (second.1.withBlock place, second.2) where
  wellFormed := wellFormed_withBlock h.wellFormed place
  pool := (pool_withBlock second.1 place).trans h.pool
  handedOut := (frames_withBlock second.1 place).symm ▸ h.handedOut
  frames := (frames_withBlock second.1 place).symm ▸ h.frames
  copied := by
    intro item hitem
    obtain ⟨entry, hfind, hcopied⟩ := h.copied item hitem
    exact ⟨entry, (find?_withBlock h.wellFormed place item.1).trans hfind, hcopied⟩
  others page hpage := (find?_withBlock h.wellFormed place page).trans (h.others page hpage)
  contents := h.contents
  limit := h.limit
  allocations := h.allocations
  releases := h.releases

end TakesIn

section CopyEntry

variable {table : PageTable} {pool : FramePool} {owned : List PhysicalAddress} {page : PageNumber}
  {entry : PageEntry}

theorem copyEntry_of_full (page : PageNumber) (entry : PageEntry) (howned : pool.HandedOut owned)
    (hfull : owned.length = pool.limit) :
    copyEntry page entry (table, pool) =
      ⟨.error (.refused .outOfMemory), (table.withBlock page.firstIndex, pool),
        [.allocated table.pool none]⟩ := by
  simp [copyEntry, FramePool.allocateFrame_eq, howned.allocate_of_full hfull, Outcome.after]

theorem copyEntry_of_some (page : PageNumber) (h : table.WellFormed) (howned : pool.HandedOut owned)
    (hsource : entry.frame ∈ owned) {frame : PhysicalAddress} {next : FramePool}
    (hallocate : pool.allocate = (some frame, next)) :
    copyEntry page entry (table, pool) =
      ⟨.ok (), (table.mapping page (entry.moved frame),
          next.withContents frame (pool.memory.contents entry.frame)),
        [.allocated table.pool (some frame)]⟩ := by
  obtain ⟨hnext, hchange⟩ := howned.allocate_of_some hallocate
  have hkept : entry.frame ∈ next.free ++ frame :: owned := by simp [hsource]
  have hentry : PageEntry.new frame (entry.flags.withValid true) = .ok (entry.moved frame) :=
    PageEntry.new_of_isPageAligned hnext.isPageAligned_first _
  simp [copyEntry, FramePool.allocateFrame_eq, hallocate,
    FramePool.copyFrame_of_holds (hnext.holds hkept) hnext.holds_first, hentry, insert_withBlock h,
    Outcome.after, hchange.memory]

theorem copyEntry_of_room (page : PageNumber) (h : table.WellFormed) (howned : pool.HandedOut owned)
    (hroom : owned.length < pool.limit) (hsource : entry.frame ∈ owned) :
    ∃ frame next events, copyEntry page entry (table, pool) =
        ⟨.ok (), (table.mapping page (entry.moved frame),
          next.withContents frame (pool.memory.contents entry.frame)), events⟩ ∧
      next.HandedOut (frame :: owned) ∧ pool.Allocates next := by
  obtain ⟨frame, next, hallocate, hnext⟩ := howned.allocate_of_room hroom
  exact ⟨frame, next, _, copyEntry_of_some page h howned hsource hallocate, hnext⟩

theorem takesIn_copyEntry (h : table.WellFormed) (howned : pool.HandedOut (table.frames ++ owned))
    (hroom : (table.frames ++ owned).length < pool.limit) (hunmapped : table.find? page = none)
    (hsource : entry.frame ∈ owned) :
    ∃ after events, copyEntry page entry (table, pool) = ⟨.ok (), after, events⟩ ∧
      TakesIn [(page, entry)] owned (table, pool) after := by
  obtain ⟨frame, next, events, hcopy, hnext, hchange⟩ :=
    copyEntry_of_room page h howned hroom (List.mem_append_right _ hsource)
  have hframe : (entry.moved frame).frame = frame :=
    PageEntry.frame_moved hnext.isPageAligned_first entry
  have hframes := frames_mapping_perm h (entry.moved frame) hunmapped
  rw [hframe] at hframes
  refine ⟨_, events, hcopy, ?_⟩
  constructor
  case wellFormed => exact wellFormed_mapping h page _ (PageEntry.isValid_moved entry frame)
  case pool => exact pool_mapping table page _
  case handedOut => exact (hnext.withContents _ _).perm (hframes.append_right owned).symm
  case frames => exact fun other hother => hframes.symm.subset (List.mem_cons_of_mem _ hother)
  case copied =>
    intro item hitem
    obtain rfl := List.mem_singleton.mp hitem
    refine ⟨entry.moved frame, ?_, PageEntry.isValid_moved entry frame,
      PageEntry.isDirty_moved entry frame, ?_⟩
    · rw [find?_mapping h, if_pos rfl]
    · rw [hframe]
      exact hnext.contents_withContents_first _
  case others =>
    intro other hother
    rw [List.map_singleton, List.mem_singleton] at hother
    rw [find?_mapping h, if_neg hother]
  case contents =>
    intro other hother
    rw [hnext.contents_withContents _ hother, hchange.memory]
  case limit => exact hchange.limit
  case allocations => exact hchange.allocations
  case releases => exact hchange.releases

end CopyEntry

/-- Pages that can be copied into a table: they have different places, none of which is mapped, and
their frames are owned. -/
structure Copyable (items : List (PageNumber × PageEntry)) (owned : List PhysicalAddress)
    (table : PageTable) : Prop where
  places : (items.map fun item => item.1.place).Nodup
  unmapped : ∀ item ∈ items, table.find? item.1 = none
  sources : ∀ item ∈ items, item.2.frame ∈ owned

section CopyEntries

variable {items : List (PageNumber × PageEntry)} {owned : List PhysicalAddress} {table : PageTable}
  {pool : FramePool}

theorem Copyable.of_cons {page : PageNumber} {entry : PageEntry} {after : PageTable × FramePool}
    (h : Copyable ((page, entry) :: items) owned table)
    (hstep : TakesIn [(page, entry)] owned (table, pool) after) : Copyable items owned after.1 := by
  obtain ⟨hplace, hplaces⟩ := List.nodup_cons.mp h.places
  refine ⟨hplaces, ?_, fun item hitem => h.sources item (List.mem_cons_of_mem _ hitem)⟩
  intro item hitem
  rw [hstep.others, h.unmapped item (List.mem_cons_of_mem _ hitem)]
  rw [List.map_singleton, List.mem_singleton]
  intro heq
  exact hplace (List.mem_map.mpr ⟨item, hitem, heq⟩)

theorem TakesIn.length_frames {after : PageTable × FramePool}
    (h : TakesIn items owned (table, pool) after)
    (howned : pool.HandedOut (table.frames ++ owned)) :
    (after.1.frames ++ owned).length = (table.frames ++ owned).length + items.length := by
  have hbefore := howned.allocations
  have hafter := h.handedOut.allocations
  rw [h.allocations, h.releases] at hafter
  change pool.allocations + items.length = pool.releases + _ at hafter
  omega

theorem copyEntry_of_copyable {page : PageNumber} {entry : PageEntry} (h : table.WellFormed)
    (howned : pool.HandedOut (table.frames ++ owned))
    (hitems : Copyable ((page, entry) :: items) owned table)
    (hroom : (table.frames ++ owned).length < pool.limit) :
    ∃ next events, copyEntry page entry (table, pool) = ⟨.ok (), next, events⟩ ∧
      TakesIn [(page, entry)] owned (table, pool) next ∧ Copyable items owned next.1 ∧
      (next.1.frames ++ owned).length = (table.frames ++ owned).length + 1 := by
  obtain ⟨next, events, hcopy, hstep⟩ := takesIn_copyEntry h howned hroom
    (hitems.unmapped _ List.mem_cons_self) (hitems.sources _ List.mem_cons_self)
  exact ⟨next, events, hcopy, hstep, hitems.of_cons hstep, hstep.length_frames howned⟩

theorem TakesIn.cons {done : List (PageNumber × PageEntry)} {page : PageNumber} {entry : PageEntry}
    {first second third : PageTable × FramePool}
    (h : TakesIn [(page, entry)] owned first second) (hdone : TakesIn done owned second third)
    (hitems : Copyable ((page, entry) :: items) owned table) (hsubset : done ⊆ items) :
    TakesIn ((page, entry) :: done) owned first third := by
  refine h.append hdone ?_ ?_
  · intro item hitem hplace
    obtain rfl := List.mem_singleton.mp hitem
    obtain ⟨other, hother, heq⟩ := List.mem_map.mp hplace
    exact (List.nodup_cons.mp hitems.places).1 (List.mem_map.mpr ⟨other, hsubset hother, heq⟩)
  · intro item hitem
    exact hitems.sources item (List.mem_cons_of_mem _ (hsubset hitem))

theorem copyEntries_of_room (h : table.WellFormed) (howned : pool.HandedOut (table.frames ++ owned))
    (hitems : Copyable items owned table)
    (hroom : (table.frames ++ owned).length + items.length ≤ pool.limit) :
    ∃ after events, copyEntries items (table, pool) = ⟨.ok (), after, events⟩ ∧
      TakesIn items owned (table, pool) after := by
  induction items generalizing table pool with
  | nil => exact ⟨_, [], rfl, TakesIn.nil h howned⟩
  | cons item items ih =>
      rcases item with ⟨page, entry⟩
      rw [List.length_cons] at hroom
      obtain ⟨next, events, hcopy, hstep, hrest, hlength⟩ :=
        copyEntry_of_copyable h howned hitems (by omega)
      have hlimit : next.2.limit = pool.limit := hstep.limit
      obtain ⟨after, others, hcopies, hafter⟩ :=
        ih hstep.wellFormed hstep.handedOut hrest (by omega)
      refine ⟨after, events ++ others, ?_, hstep.cons hafter hitems (List.Subset.refl items)⟩
      rw [copyEntries, Action.bind_of_ok hcopy, hcopies]
      rfl

/-- Without room for all of them the first ones are taken in, until every frame of the pool is
handed out. Then memory has run out. -/
theorem copyEntries_of_short (h : table.WellFormed)
    (howned : pool.HandedOut (table.frames ++ owned)) (hitems : Copyable items owned table)
    (hshort : pool.limit < (table.frames ++ owned).length + items.length) :
    ∃ done after events, copyEntries items (table, pool) =
        ⟨.error (.refused .outOfMemory), after, events⟩ ∧
      done <+: items ∧ TakesIn done owned (table, pool) after ∧
      (table.frames ++ owned).length + done.length = pool.limit := by
  induction items generalizing table pool with
  | nil =>
      have := howned.length_le
      rw [List.length_nil] at hshort
      omega
  | cons item items ih =>
      rcases item with ⟨page, entry⟩
      rw [List.length_cons] at hshort
      rcases Nat.lt_or_eq_of_le howned.length_le with hroom | hfull
      · obtain ⟨next, events, hcopy, hstep, hrest, hlength⟩ :=
          copyEntry_of_copyable h howned hitems hroom
        have hlimit : next.2.limit = pool.limit := hstep.limit
        obtain ⟨done, after, others, hcopies, hdone, hafter, hfilled⟩ :=
          ih hstep.wellFormed hstep.handedOut hrest (by omega)
        refine ⟨(page, entry) :: done, after, events ++ others, ?_, ?_, ?_, ?_⟩
        · rw [copyEntries, Action.bind_of_ok hcopy, hcopies]
          rfl
        · exact (List.prefix_cons_inj _).mpr hdone
        · exact hstep.cons hafter hitems hdone.subset
        · rw [List.length_cons]
          omega
      · refine ⟨[], (table.withBlock page.firstIndex, pool), [.allocated table.pool none], ?_,
          List.nil_prefix, (TakesIn.nil h howned).withBlock page.firstIndex, hfull⟩
        rw [copyEntries]
        exact Action.bind_of_error (copyEntry_of_full page entry howned hfull)

end CopyEntries

section Copy

variable {table : PageTable} {pool : FramePool} {owned : List PhysicalAddress}
  (h : table.WellFormed)

include h

theorem copyable_mappedPages (hframes : table.frames ⊆ owned) :
    Copyable table.mappedPages owned (empty table.pool) where
  places := nodup_places table
  unmapped _ _ := find?_empty table.pool _
  sources _ hitem := hframes ((frames_perm h).subset (List.mem_map_of_mem hitem))

theorem copy_of_room (howned : pool.HandedOut owned) (hframes : table.frames ⊆ owned)
    (hroom : owned.length + table.mappedCount ≤ pool.limit) :
    ∃ target next events, table.copy pool = ⟨.ok target, next, events⟩ ∧
      TakesIn table.mappedPages owned (empty table.pool, pool) (target, next) := by
  have hempty : pool.HandedOut ((empty table.pool).frames ++ owned) := by rwa [frames_empty]
  obtain ⟨⟨target, next⟩, events, hcopies, hafter⟩ :=
    copyEntries_of_room (wellFormed_empty table.pool)
    hempty (copyable_mappedPages h hframes)
    (by rwa [frames_empty, List.nil_append, length_mappedPages h])
  refine ⟨target, next, events, ?_, hafter⟩
  rw [copy, Action.build, hcopies]

theorem copy_of_short (howned : pool.HandedOut owned) (hframes : table.frames ⊆ owned)
    (hshort : pool.limit < owned.length + table.mappedCount) :
    ∃ next events, table.copy pool = ⟨.error (.refused .outOfMemory), next, events⟩ ∧
      pool.GivesBack owned next := by
  have hempty : pool.HandedOut ((empty table.pool).frames ++ owned) := by rwa [frames_empty]
  obtain ⟨done, ⟨target, next⟩, events, hcopies, -, hafter, hfilled⟩ :=
    copyEntries_of_short (wellFormed_empty table.pool) hempty (copyable_mappedPages h hframes)
      (by rwa [frames_empty, List.nil_append, length_mappedPages h])
  rw [frames_empty, List.nil_append] at hfilled
  have htaken : done.length = pool.limit - owned.length := by omega
  have hlength : (target.frames ++ owned).length = owned.length + done.length := by
    simpa using hafter.length_frames hempty
  rw [List.length_append] at hlength
  obtain ⟨released, hdestroy⟩ := destroy_of_handedOut hafter.handedOut
  refine ⟨next.takeBackAll target.frames, events ++ released, ?_, ?_⟩
  · rw [copy, Action.build, hcopies]
    simp only [hdestroy]
  · constructor
    case handedOut => exact hafter.handedOut.takeBackAll
    case limit => rw [FramePool.limit_takeBackAll, hafter.limit]
    case allocations => rw [FramePool.allocations_takeBackAll, hafter.allocations, htaken]
    case releases =>
      rw [FramePool.releases_takeBackAll, hafter.releases]
      change pool.releases + target.frames.length = _
      omega
    case contents =>
      intro frame hframe
      rw [FramePool.memory_takeBackAll]
      exact hafter.contents frame (List.mem_append_right _ hframe)

end Copy

theorem TakesIn.find?_copy {table target : PageTable} {pool next : FramePool}
    {owned : List PhysicalAddress}
    (h : TakesIn table.mappedPages owned (empty table.pool, pool) (target, next))
    {page : PageNumber} {entry : PageEntry} (hentry : table.find? page = some entry) :
    ∃ copied, target.find? page = some copied ∧ copied.isValid = true ∧
      copied.isDirty = entry.isDirty ∧
      next.memory.contents copied.frame = pool.memory.contents entry.frame := by
  obtain ⟨other, hplace, hother⟩ := exists_mem_mappedPages hentry
  obtain ⟨copied, hfind, hcopied⟩ := h.copied (other, entry) hother
  exact ⟨copied, (find?_of_place_eq target hplace).symm.trans hfind, hcopied⟩

theorem TakesIn.contains_copy {table target : PageTable} {pool next : FramePool}
    {owned : List PhysicalAddress}
    (h : TakesIn table.mappedPages owned (empty table.pool, pool) (target, next))
    (page : PageNumber) :
    target.contains page = table.contains page := by
  rw [contains, contains]
  cases hfind : table.find? page with
  | some entry =>
      obtain ⟨copied, hcopied, -⟩ := h.find?_copy hfind
      rw [hcopied]
      rfl
  | none =>
      have hother : page.place ∉ table.mappedPages.map fun item => item.1.place := by
        intro hmem
        obtain ⟨⟨other, entry⟩, hitem, hplace⟩ := List.mem_map.mp hmem
        have hsame : table.find? other = table.find? page := find?_of_place_eq table hplace
        rw [(mem_mappedPages_iff.mp hitem).2, hfind] at hsame
        exact Option.some_ne_none entry hsame
      have hcopied : target.find? page = none :=
        (h.others page hother).trans (find?_empty table.pool page)
      rw [hcopied]

end PageTable

end DemandPaging
