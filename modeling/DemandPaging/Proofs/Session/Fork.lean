import DemandPaging.Proofs.Session.Reachable

namespace DemandPaging

namespace AddressSpace

/-- A copy of a space that was made while its pool went from one state to another. The copy has the
same regions and maps the same pages, with the same flags and the same bytes, to frames that were
not in use. Whatever was in use before still holds its bytes. -/
structure IsFork (space copy : AddressSpace) (pool next : FramePool) : Prop where
  regions : copy.regions = space.regions
  loading : copy.loading = space.loading
  stackBase : copy.stackBase = space.stackBase
  contains : ∀ page, copy.table.contains page = space.table.contains page
  entries : ∀ page entry, space.table.find? page = some entry →
    ∃ copied, copy.table.find? page = some copied ∧ copied.isValid = true ∧
      copied.isDirty = entry.isDirty ∧
      copied.frame ∉ pool.framesInUse ∧ pool.memory.SameBytes entry.frame next.memory copied.frame
  inUse : next.framesInUse.Perm
    ((copy.table.mappedPages.map fun item => item.2.frame) ++ pool.framesInUse)
  nodup : next.framesInUse.Nodup
  bytes : ∀ frame ∈ pool.framesInUse, pool.memory.SameBytes frame next.memory frame
  allocations : next.allocations = pool.allocations + space.table.mappedCount
  releases : next.releases = pool.releases

theorem isFork_of_takesIn {space : AddressSpace} {target : PageTable} {pool next : FramePool}
    {owned : List PhysicalAddress} (hspace : space.table.WellFormed) (howned : pool.HandedOut owned)
    (hframes : space.table.frames ⊆ owned)
    (h : PageTable.TakesIn space.table.mappedPages owned (.empty space.table.pool, pool)
      (target, next)) :
    IsFork space { space with table := target } pool next where
  regions := rfl
  loading := rfl
  stackBase := rfl
  contains := h.contains_copy
  entries := by
    intro page entry hentry
    obtain ⟨copied, hcopied, hvalid, hdirty, hcontents⟩ := h.find?_copy hentry
    have htarget := PageTable.frame_mem_frames hcopied
    refine ⟨copied, hcopied, hvalid, hdirty, ?_, ?_⟩
    · intro hused
      exact List.disjoint_of_nodup_append h.handedOut.nodup htarget
        (howned.framesInUse_perm.mem_iff.mp hused)
    · exact howned.sameBytes_of_mem h.handedOut (hframes (PageTable.frame_mem_frames hentry))
        (List.mem_append_left owned htarget) hcontents
  inUse := by
    have hmapped := PageTable.frames_perm h.wellFormed
    exact h.handedOut.framesInUse_perm.trans (hmapped.symm.append howned.framesInUse_perm.symm)
  nodup := h.handedOut.framesInUse_perm.nodup_iff.mpr h.handedOut.nodup
  bytes := by
    intro frame hused
    have hin := howned.framesInUse_perm.mem_iff.mp hused
    exact howned.sameBytes_of_mem h.handedOut hin (List.mem_append_right target.frames hin)
      (h.contents frame (List.mem_append_right _ hin))
  allocations := h.allocations.trans (congrArg _ (PageTable.length_mappedPages hspace))
  releases := h.releases

end AddressSpace

namespace Session

variable {n : Nat}

/-- In every reachable state a copy of a space is made exactly if its pool has a frame left for each
mapped page. Memory runs out otherwise. A copy that is made is a fork, and nothing but the pool has
changed. -/
theorem copy_of_reachable {s : Session n} {held : Holdings} (h : Reachable s held) {slot : SlotId}
    {space : AddressSpace} (hspace : s.spaces.get? slot = some space) :
    ∃ pool, s.pools[space.table.pool]? = some pool ∧
      ((∃ copy, (onPool space.table.pool space.copy s).result = .ok copy) ↔
        space.table.mappedCount ≤ pool.limit - pool.outstanding) ∧
      ((onPool space.table.pool space.copy s).result = .error (.refused .outOfMemory) ↔
        pool.limit - pool.outstanding < space.table.mappedCount) ∧
      ∀ copy, (onPool space.table.pool space.copy s).result = .ok copy →
        ∃ next, (onPool space.table.pool space.copy s).state = s.putPool space.table.pool next ∧
          space.IsFork copy pool next := by
  have hbalances := h.balances
  have hlive : space.table ∈ [] ++ s.liveTables := mem_liveTables_of_space hspace
  obtain ⟨pool, hpool⟩ := hbalances.exists_pool hlive
  have howned := hbalances.handedOut space.table.pool pool hpool
  have hwellFormed := hbalances.wellFormed space.table hlive
  have hframes :=
    List.subset_append_of_subset_left (held.on space.table.pool) (frames_subset_framesOn hlive)
  have hroom : space.table.mappedCount ≤ pool.limit - pool.outstanding ↔
      pool.outstanding + space.table.mappedCount ≤ pool.limit := by
    have hle := howned.length_le
    rw [← howned.outstanding_eq] at hle
    omega
  refine ⟨pool, hpool, ?_⟩
  rw [← Nat.not_le, hroom, howned.outstanding_eq, onPool_of_some hpool space.copy]
  by_cases henough :
    (framesOn space.table.pool ([] ++ s.liveTables) ++ held.on space.table.pool).length +
      space.table.mappedCount ≤ pool.limit
  · obtain ⟨target, next, events, hcopy, hafter⟩ :=
      PageTable.copy_of_room hwellFormed howned hframes henough
    rw [AddressSpace.copy_of_ok hcopy]
    refine ⟨iff_of_true ⟨_, rfl⟩ henough, iff_of_false (by simp) fun hshort => hshort henough, ?_⟩
    rintro copy hresult
    obtain rfl := Except.ok.inj hresult
    exact ⟨next, rfl, AddressSpace.isFork_of_takesIn hwellFormed howned hframes hafter⟩
  · obtain ⟨next, events, hcopy, -⟩ :=
      PageTable.copy_of_short hwellFormed howned hframes (Nat.lt_of_not_le henough)
    rw [AddressSpace.copy_of_error hcopy]
    refine ⟨iff_of_false (by simp) henough, iff_of_true rfl henough, ?_⟩
    rintro copy hresult
    cases hresult

theorem copy_of_readBeforeLoad :
    ∃ space pool copy next, readBeforeLoad.spaces.get? 0 = some space ∧
      readBeforeLoad.pools[space.table.pool]? = some pool ∧ space.table.mappedCount = 1 ∧
      pool.limit - pool.outstanding = 1 ∧
      (onPool space.table.pool space.copy readBeforeLoad).result = .ok copy ∧
      (onPool space.table.pool space.copy readBeforeLoad).state =
        readBeforeLoad.putPool space.table.pool next ∧
      space.IsFork copy pool next := by
  have hcounts : (readBeforeLoad.spaces.get? 0).map (fun space => (space.table.mappedCount,
      readBeforeLoad.pools[space.table.pool]?.map fun pool => pool.limit - pool.outstanding)) =
        some (1, some 1) := by
    decide +kernel
  obtain ⟨space, hspace, hcount⟩ := Option.map_eq_some_iff.mp hcounts
  obtain ⟨hmapped, hleft⟩ := Prod.mk.inj hcount
  obtain ⟨pool, hpool, hmade, -, hfork⟩ := copy_of_reachable reachable_readBeforeLoad hspace
  rw [hpool, Option.map_some] at hleft
  have hroom := Option.some.inj hleft
  obtain ⟨copy, hcopy⟩ := hmade.mpr (Nat.le_of_eq (hmapped.trans hroom.symm))
  obtain ⟨next, hstate, hnext⟩ := hfork copy hcopy
  exact ⟨space, pool, copy, next, hspace, hpool, hmapped, hroom, hcopy, hstate, hnext⟩

section Failed

variable {s : Session n} {held : Holdings} {α β : Type} {tableOf : α → PageTable}
  {x : Action FramePool α} {table : PageTable} {f : α → Action (Session n) β}

theorem leavesNoTrace_of_failed (h : Balances s [] held) (htable : table ∈ s.liveTables)
    (hx : PageTable.Copies table tableOf x)
    (hf : ∀ a t, Balances t [tableOf a] held → (f a t).result ≠ .error (.refused .outOfMemory))
    (hfailed : ((onPool table.pool x >>= f) s).result = .error (.refused .outOfMemory)) :
    ∃ pool next, s.pools[table.pool]? = some pool ∧
      ((onPool table.pool x >>= f) s).state = s.putPool table.pool next ∧
      pool.LeavesNoTrace next := by
  obtain ⟨pool, next, events, hpool, -, ⟨a, hrun, hnext⟩ | ⟨hrun, -, htrace⟩⟩ :=
    onPool_of_copies h htable hx
  · rw [Action.bind_of_ok hrun] at hfailed
    exact absurd hfailed (hf a _ hnext)
  · rw [Action.bind_of_error hrun]
    exact ⟨pool, next, hpool, rfl, htrace⟩

theorem result_of_placed {t : Session n} {place : Action (Session n) Unit}
    (hplace : (place t).result = .ok ()) :
    ((place >>= fun _ => pure Answer.done) t).result ≠ .error (.refused .outOfMemory) := by
  rw [Action.result_bind, hplace]
  simp

end Failed

def copied? (s : Session n) : Request → Option PageTable
  | .table slot (.copy _) => s.tables.get? slot
  | .space slot (.copy _) => (s.spaces.get? slot).map AddressSpace.table
  | _ => none

/-- A copy of a table or of a space for which memory runs out, in any reachable state, changes the
pool of the table and nothing else. The pool has handed out and taken back every frame that was
left, and apart from that no one can tell that there was a copy. -/
theorem state_of_failed_copy {s : Session n} {held : Holdings} (h : Reachable s held)
    {request : Request} {table : PageTable} (hcopied : s.copied? request = some table)
    (hfailed : (answer request s).result = .error (.refused .outOfMemory)) :
    ∃ pool next, s.pools[table.pool]? = some pool ∧
      (answer request s).state = s.putPool table.pool next ∧ pool.LeavesNoTrace next := by
  have hbalances := h.balances
  cases request with
  | table slot request =>
      cases request with
      | copy target =>
          have htable : s.tables.get? slot = some table := hcopied
          have hlive := mem_liveTables_of_table htable
          have hcopies := PageTable.copies_copy (hbalances.wellFormed table hlive)
          rw [answer, answerTable, named_bind, htable] at hfailed ⊢
          refine leavesNoTrace_of_failed hbalances hlive hcopies (fun copied t ht => ?_) hfailed
          exact result_of_placed (result_placeTable target ht)
      | _ => contradiction
  | space slot request =>
      cases request with
      | copy target =>
          obtain ⟨space, hspace, rfl⟩ := Option.map_eq_some_iff.mp hcopied
          have hlive := mem_liveTables_of_space hspace
          have hcopies := AddressSpace.copies_copy (hbalances.wellFormed _ hlive)
          rw [answer, answerSpace, named_bind, hspace] at hfailed ⊢
          refine leavesNoTrace_of_failed hbalances hlive hcopies (fun copied t ht => ?_) hfailed
          exact result_of_placed (result_placeSpace target ht)
      | _ => contradiction
  | _ => contradiction

/-- A session with a space of two pages and a single frame that is left. -/
def shortOfFrames : Session 1 :=
  (run (ofLimits #[3] #[.sole])
    [.space 0 (.new 0), .space 0 (.define 0x1000 0x2000 .readWrite),
      .processor 0 (.fault 0 .write 0x1000), .space 0 (.poke 0x1000 [7]),
      .processor 0 (.fault 0 .read 0x2000)]).2

theorem reachable_shortOfFrames : Reachable shortOfFrames [] :=
  (reachable_ofLimits #[3] #[.sole]).run
    (⟨trivial, trivial, trivial, trivial, trivial, trivial⟩ :
      HonestRun (ofLimits #[3] #[.sole]) []
        [.space 0 (.new 0), .space 0 (.define 0x1000 0x2000 .readWrite),
          .processor 0 (.fault 0 .write 0x1000), .space 0 (.poke 0x1000 [7]),
          .processor 0 (.fault 0 .read 0x2000)])

theorem state_of_failed_copy_of_shortOfFrames :
    ∃ (table : PageTable) (pool next : FramePool),
      shortOfFrames.copied? (.space 0 (.copy 1)) = some table ∧ table.mappedCount = 2 ∧
      (answer (.space 0 (.copy 1)) shortOfFrames).result = .error (.refused .outOfMemory) ∧
      shortOfFrames.pools[table.pool]? = some pool ∧
      (answer (.space 0 (.copy 1)) shortOfFrames).state = shortOfFrames.putPool table.pool next ∧
      pool.LeavesNoTrace next := by
  have hmapped : (shortOfFrames.copied? (.space 0 (.copy 1))).map PageTable.mappedCount =
      some 2 := by
    decide +kernel
  obtain ⟨table, hcopied, hcount⟩ := Option.map_eq_some_iff.mp hmapped
  have hstopped : (answer (.space 0 (.copy 1)) shortOfFrames).result.map (fun _ => ()) =
      .error (.refused .outOfMemory) := by
    decide +kernel
  have hfailed : (answer (.space 0 (.copy 1)) shortOfFrames).result =
      .error (.refused .outOfMemory) := by
    cases hresult : (answer (.space 0 (.copy 1)) shortOfFrames).result with
    | ok a => simp [hresult, Except.map] at hstopped
    | error reason => simpa [hresult, Except.map] using hstopped
  obtain ⟨pool, next, hpool, hstate, htrace⟩ :=
    state_of_failed_copy reachable_shortOfFrames hcopied hfailed
  exact ⟨table, pool, next, hcopied, hcount, hfailed, hpool, hstate, htrace⟩

end Session

end DemandPaging
