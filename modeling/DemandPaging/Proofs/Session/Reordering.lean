import DemandPaging.Proofs.Session.FirstFaults

namespace DemandPaging

namespace Grown

variable {base now other : AddressSpace × FramePool} {owned : List PhysicalAddress}
  {added : Finset PageNumber}

theorem map_isDirty_eq (h : Grown base owned added now) (hother : Grown base owned added other)
    (page : PageNumber) :
    (other.1.table.find? page).map PageEntry.isDirty =
      (now.1.table.find? page).map PageEntry.isDirty := by
  by_cases hnew : ∃ new ∈ added, new.place = page.place
  · obtain ⟨new, hadded, hplace⟩ := hnew
    obtain ⟨entry, hentry, hdirty, -⟩ := h.mapped new hadded
    obtain ⟨another, hanother, hsame, -⟩ := hother.mapped new hadded
    rw [← PageTable.find?_of_place_eq _ hplace, hanother, ← PageTable.find?_of_place_eq _ hplace,
      hentry, Option.map_some, Option.map_some, hdirty, hsame]
  · have hnone : ∀ new ∈ added, new.place ≠ page.place :=
      fun new hadded hplace => hnew ⟨new, hadded, hplace⟩
    rw [h.kept page hnone, hother.kept page hnone]

theorem find?_eq_some (h : Grown base owned added now) {page : PageNumber} {entry : PageEntry}
    (hentry : base.1.table.find? page = some entry) : now.1.table.find? page = some entry := by
  refine (h.kept page fun new hadded hplace => ?_).trans hentry
  have hunmapped := h.unmapped new hadded
  rw [PageTable.find?_of_place_eq _ hplace, hentry] at hunmapped
  cases hunmapped

theorem byte?_eq_zero (h : Grown base owned added now) {page : PageNumber} {entry : PageEntry}
    (hunmapped : base.1.table.find? page = none) (hentry : now.1.table.find? page = some entry)
    (place : Fin Layout.pageSize) :
    now.2.memory.byte? (entry.frame.word.toNat + place) = some 0 := by
  have hclear : now.2.memory.contents entry.frame = Page.zero := by
    by_cases hnew : ∃ new ∈ added, new.place = page.place
    · obtain ⟨new, hadded, hplace⟩ := hnew
      obtain ⟨found, hfound, -, hclear⟩ := h.mapped new hadded
      rw [PageTable.find?_of_place_eq _ hplace, hentry] at hfound
      cases hfound
      exact hclear
    · rw [h.kept page fun new hadded hplace => hnew ⟨new, hadded, hplace⟩, hunmapped] at hentry
      cases hentry
  have hframe : entry.frame ∈ now.2.free ++ (now.1.table.frames ++ owned) :=
    List.mem_append_right _ (List.mem_append_left _ (PageTable.frame_mem_frames hentry))
  have hbyte := Memory.byte?_frame (h.backed.handedOut.holds hframe)
    (h.backed.handedOut.isPageAligned hframe) place
  refine hbyte.trans (congrArg some ?_)
  refine (congrArg (fun page : Page => page[place]) hclear).trans ?_
  exact Vector.getElem_replicate _

end Grown

/-- Two spaces with the same pages, of which those that another space has are mapped as they are
there, and all others to frames with every byte zero. -/
structure AddressSpace.SamePages (base left right : AddressSpace) (memory : Memory) : Prop where
  left_eq : left = { base with table := left.table }
  right_eq : right = { base with table := right.table }
  contains : ∀ page, right.table.contains page = left.table.contains page
  isDirty : ∀ page, (right.table.find? page).map PageEntry.isDirty =
    (left.table.find? page).map PageEntry.isDirty
  kept : ∀ page entry, base.table.find? page = some entry →
    left.table.find? page = some entry ∧ right.table.find? page = some entry
  cleared : ∀ page entry, base.table.find? page = none →
    left.table.find? page = some entry ∨ right.table.find? page = some entry →
      ∀ place : Fin Layout.pageSize, memory.byte? (entry.frame.word.toNat + place) = some 0

theorem Grown.samePages {base now other : AddressSpace × FramePool} {owned : List PhysicalAddress}
    {added : Finset PageNumber} (h : Grown base owned added now)
    (hother : Grown base owned added other) :
    base.1.SamePages now.1 other.1 now.2.memory where
  left_eq := h.space
  right_eq := hother.space
  contains := by
    intro page
    have hsome := congrArg Option.isSome (h.map_isDirty_eq hother page)
    rwa [Option.isSome_map, Option.isSome_map] at hsome
  isDirty := h.map_isDirty_eq hother
  kept page entry hentry := ⟨h.find?_eq_some hentry, hother.find?_eq_some hentry⟩
  cleared := by
    rintro page entry hunmapped (hentry | hentry) place
    · exact h.byte?_eq_zero hunmapped hentry place
    · rw [h.pool, ← hother.pool]
      exact hother.byte?_eq_zero hunmapped hentry place

def Fault.request (fault : Fault) (id : Nat) (slot : SlotId) : Request :=
  .processor id (.fault slot fault.access fault.word)

namespace Session

variable {n : Nat}

/-- A session in which the space of a slot has grown, and nothing else has changed but the pool of
the space and a cache. -/
structure HasGrown (s : Session n) (slot : SlotId) (cache : Fin n) (base : AddressSpace × FramePool)
    (owned : List PhysicalAddress) (added : Finset PageNumber) (now : AddressSpace × FramePool)
    (t : Session n) : Prop where
  grown : Grown base owned added now
  eq : t = { putSpace slot now s with machines := t.machines }
  machines : s.machines.SameButCache cache t.machines

section Run

variable {s t : Session n} {slot : SlotId} {id : Nat} {processor : Processor n}
  {base now : AddressSpace × FramePool} {owned : List PhysicalAddress} {added : Finset PageNumber}
  (hspace : space? slot s = some base) (hprocessor : s.processors[id]? = some processor)
  (hsame : processor.cache = processor.interrupts)
  (hbase : PageTable.Backed owned (AddressSpace.part base))

include hspace

theorem HasGrown.refl (hbase : PageTable.Backed owned (AddressSpace.part base)) (cache : Fin n) :
    HasGrown s slot cache base owned ∅ base s where
  grown := .refl hbase
  eq := by rw [putSpace_self hspace]
  machines := .refl cache s.machines

theorem HasGrown.space?_eq {cache : Fin n} (h : HasGrown s slot cache base owned added now t) :
    space? slot t = some now := by
  rw [h.eq]
  exact space?_putSpace hspace h.grown.samePool

include hprocessor hsame hbase

theorem HasGrown.answer (h : HasGrown s slot processor.cache base owned added now t) (fault : Fault)
    (hroom : base.2.outstanding + (added ∪ base.1.newPages [fault]).card ≤ base.2.limit) :
    (Session.answer (fault.request id slot) t).result =
        (base.1.verdict fault).map (fun _ => Answer.done) ∧
      ∃ next, HasGrown s slot processor.cache base owned (added ∪ base.1.newPages [fault]) next
        (Session.answer (fault.request id slot) t).state := by
  obtain ⟨next, after, events, hfault, hgrown, hcache⟩ :=
    h.grown.step hsame hbase fault hroom t.machines
  have hthere : t.processors[id]? = some processor := by
    rw [h.eq]
    exact hprocessor
  have hprocess := onProcess_of_some (h.space?_eq hspace) hfault
  have hanswer : Session.answer (fault.request id slot) t =
      ⟨(base.1.verdict fault).map fun _ => .done,
        { putSpace slot next t with machines := after }, events⟩ := by
    rw [Fault.request, Session.answer, named_bind, hthere]
    simp only [answerProcessor, Action.run_bind, hprocess]
    cases base.1.verdict fault with
    | ok value => simp [Outcome.after, Except.map]
    | error reason => rfl
  rw [hanswer]
  refine ⟨rfl, next, hgrown, ?_, h.machines.trans hcache⟩
  have hpool : next.1.table.pool = now.1.table.pool :=
    hgrown.samePool.trans h.grown.samePool.symm
  have hput : putSpace slot next t =
      { putSpace slot next s with machines := (putSpace slot next t).machines } := by
    conv_lhs => rw [h.eq]
    exact congrArg (fun u : Session n => { u with machines := t.machines })
      (putSpace_putSpace hpool s)
  exact congrArg (fun u : Session n => { u with machines := after }) hput

/-- Over a whole run of faults each ends as the regions say, and the pages that they map are
added. -/
theorem HasGrown.run (h : HasGrown s slot processor.cache base owned added now t)
    (faults : List Fault)
    (hroom : base.2.outstanding + (added ∪ base.1.newPages faults).card ≤ base.2.limit) :
    (Session.run t (faults.map fun fault => fault.request id slot)).1.map Report.result =
        faults.map (fun fault => (base.1.verdict fault).map fun _ => Answer.done) ∧
      ∃ last, HasGrown s slot processor.cache base owned (added ∪ base.1.newPages faults) last
        (Session.run t (faults.map fun fault => fault.request id slot)).2 := by
  induction faults generalizing added now t with
  | nil =>
      rw [AddressSpace.newPages_nil, Finset.union_empty]
      exact ⟨rfl, now, h⟩
  | cons fault rest ih =>
      rw [AddressSpace.newPages_cons, ← Finset.union_assoc] at hroom ⊢
      have hfirst : (added ∪ base.1.newPages [fault]).card ≤
          (added ∪ base.1.newPages [fault] ∪ base.1.newPages rest).card :=
        Finset.card_le_card Finset.subset_union_left
      obtain ⟨hresult, next, hnext⟩ := h.answer hspace hprocessor hsame hbase fault
        (Nat.le_trans (Nat.add_le_add_left hfirst _) hroom)
      obtain ⟨hresults, hlast⟩ := ih hnext hroom
      refine ⟨?_, hlast⟩
      rw [List.map_cons, List.map_cons, Session.run, List.map_cons, hresults]
      exact congrArg (· :: _) hresult

end Run

/-- Two sessions that differ at most in the frames behind the new pages of a space and in a
cache. -/
structure SameButFrames (slot : SlotId) (cache : Fin n) (base : AddressSpace × FramePool)
    (one another : Session n) : Prop where
  pools : another.pools = one.pools
  tables : another.tables = one.tables
  processors : another.processors = one.processors
  guards : another.guards = one.guards
  machines : one.machines.SameButCache cache another.machines
  others : ∀ other, other ≠ slot → another.spaces.get? other = one.spaces.get? other
  space : ∃ left right pool, space? slot one = some (left, pool) ∧
    space? slot another = some (right, pool) ∧ base.1.SamePages left right pool.memory

theorem HasGrown.sameButFrames {s one another : Session n} {slot : SlotId} {cache : Fin n}
    {base now other : AddressSpace × FramePool} {owned : List PhysicalAddress}
    {added : Finset PageNumber} (hspace : space? slot s = some base)
    (h : HasGrown s slot cache base owned added now one)
    (hother : HasGrown s slot cache base owned added other another) :
    SameButFrames slot cache base one another := by
  have hpool : other.2 = now.2 := hother.grown.pool.trans h.grown.pool.symm
  have hid : other.1.table.pool = now.1.table.pool :=
    hother.grown.samePool.trans h.grown.samePool.symm
  constructor
  case pools =>
    rw [h.eq, hother.eq]
    simp only [putSpace, putPool, hpool, hid]
  case tables => rw [h.eq, hother.eq]; rfl
  case processors => rw [h.eq, hother.eq]; rfl
  case guards => rw [h.eq, hother.eq]; rfl
  case machines => exact h.machines.symm.trans hother.machines
  case others =>
    intro found hfound
    rw [h.eq, hother.eq]
    exact (s.spaces.get?_put slot found _).trans ((if_neg hfound).trans
      ((s.spaces.get?_put slot found _).trans (if_neg hfound)).symm)
  case space =>
    have hright := hother.space?_eq hspace
    rw [show other = (other.1, now.2) from Prod.ext rfl hpool] at hright
    exact ⟨now.1, other.1, now.2, h.space?_eq hspace, hright, h.grown.samePages hother.grown⟩

/-- In every reachable state and for every list of faults in one space: if there are as many frames
left as the faults map pages, then in any other order each of the faults ends in the same way, and
the sessions at the end differ at most in the frames behind the new pages and in the cache. -/
theorem sameButFrames_of_perm {s : Session n} {held : Holdings} (h : Reachable s held) {id : Nat}
    {processor : Processor n} (hprocessor : s.processors[id]? = some processor)
    (hsame : processor.cache = processor.interrupts) {slot : SlotId} {space : AddressSpace}
    {pool : FramePool} (hspace : space? slot s = some (space, pool)) {faults others : List Fault}
    (hperm : faults.Perm others)
    (hroom : (space.newPages faults).card ≤ pool.limit - pool.outstanding) :
    (run s (faults.map fun fault => fault.request id slot)).1.map Report.result =
        faults.map (fun fault => (space.verdict fault).map fun _ => Answer.done) ∧
      (run s (others.map fun fault => fault.request id slot)).1.map Report.result =
        others.map (fun fault => (space.verdict fault).map fun _ => Answer.done) ∧
      SameButFrames slot processor.cache (space, pool)
        (run s (faults.map fun fault => fault.request id slot)).2
        (run s (others.map fun fault => fault.request id slot)).2 := by
  obtain ⟨owned, hbacked⟩ := h.balances.exists_backed hspace
  have hle : pool.outstanding ≤ pool.limit :=
    hbacked.handedOut.outstanding_eq.trans_le hbacked.handedOut.length_le
  have henough : pool.outstanding + (∅ ∪ space.newPages faults).card ≤ pool.limit := by
    rw [Finset.empty_union]
    omega
  have hstart := HasGrown.refl hspace hbacked processor.cache
  obtain ⟨hresults, last, hlast⟩ := hstart.run hspace hprocessor hsame hbacked faults henough
  rw [space.newPages_of_perm hperm] at henough hlast
  obtain ⟨hothers, final, hfinal⟩ := hstart.run hspace hprocessor hsame hbacked others henough
  exact ⟨hresults, hothers, hlast.sameButFrames hspace hfinal⟩

def untouched : Session 1 :=
  (run (ofLimits #[2] #[.sole]) [.space 0 (.new 0), .space 0 (.define 0x1000 0x2000 .readWrite)]).2

theorem reachable_untouched : Reachable untouched [] :=
  (reachable_ofLimits #[2] #[.sole]).run
    (⟨trivial, trivial, trivial⟩ : HonestRun (ofLimits #[2] #[.sole]) []
      [.space 0 (.new 0), .space 0 (.define 0x1000 0x2000 .readWrite)])

/-- Both pages, the second one twice, and a page that no region covers. -/
def severalFaults : List Fault :=
  [⟨.write, 0x1000⟩, ⟨.read, 0x2008⟩, ⟨.write, 0x5000⟩, ⟨.write, 0x2000⟩]

theorem sameButFrames_of_untouched :
    Reachable untouched [] ∧ severalFaults.Perm severalFaults.reverse ∧
      ((run untouched (severalFaults.map fun fault => fault.request 0 0)).2.spaces.get? 0).bind
        (·.physical? ⟨0x1000⟩) = some ⟨0⟩ ∧
      ((run untouched (severalFaults.reverse.map fun fault =>
        fault.request 0 0)).2.spaces.get? 0).bind (·.physical? ⟨0x1000⟩) = some ⟨0x1000⟩ ∧
      ∃ space pool, space? 0 untouched = some (space, pool) ∧
        (space.newPages severalFaults).card ≤ pool.limit - pool.outstanding ∧
        (run untouched (severalFaults.map fun fault => fault.request 0 0)).1.map Report.result =
          [.ok .done, .ok .done, .error (.refused .protectionFault), .ok .done] ∧
        SameButFrames 0 (0 : Fin 1) (space, pool)
          (run untouched (severalFaults.map fun fault => fault.request 0 0)).2
          (run untouched (severalFaults.reverse.map fun fault => fault.request 0 0)).2 := by
  obtain ⟨⟨space, pool⟩, hspace⟩ := Option.isSome_iff_exists.mp
    (by decide +kernel : (space? 0 untouched).isSome = true)
  have hall : (space? 0 untouched).all (fun t =>
      (t.1.newPages severalFaults).card ≤ t.2.limit - t.2.outstanding ∧
        severalFaults.map t.1.verdict =
          [.ok (), .ok (), .error (.refused .protectionFault), .ok ()]) = true := by
    decide +kernel
  rw [hspace, Option.all_some, decide_eq_true_eq] at hall
  obtain ⟨hroom, hverdicts⟩ := hall
  obtain ⟨hresults, -, hsame⟩ := sameButFrames_of_perm reachable_untouched
    (rfl : untouched.processors[0]? = some ⟨0, 0⟩) rfl hspace
    severalFaults.reverse_perm.symm hroom
  have hended := congrArg (List.map (Except.map fun _ => Answer.done)) hverdicts
  rw [List.map_map] at hended
  exact ⟨reachable_untouched, severalFaults.reverse_perm.symm, by decide +kernel,
    by decide +kernel, space, pool, hspace, hroom, hresults.trans hended, hsame⟩

end Session

end DemandPaging
