import DemandPaging.Proofs.InRange
import DemandPaging.Proofs.Session.Reachable

namespace DemandPaging

/-- What can be done to the space of a slot, or in it, while there is a space in another slot. The
copy of a space is not put in the place of the other one. -/
inductive Request.ActsOn (slot other : SlotId) : Request → Prop
  | fault (processor : Nat) (access : Access) (address : UInt64) :
      ActsOn slot other (.processor processor (.fault slot access address))
  | rawFault (processor : Nat) (code : UInt32) (address : UInt64) :
      ActsOn slot other (.processor processor (.rawFault slot code address))
  | define (address length : UInt64) (permissions : Permissions) :
      ActsOn slot other (.space slot (.define address length permissions))
  | stack : ActsOn slot other (.space slot .stack)
  | beginLoad : ActsOn slot other (.space slot .beginLoad)
  | endLoad (processor : Nat) : ActsOn slot other (.space slot (.endLoad processor))
  | copy (target : SlotId) (htarget : other ≠ target) :
      ActsOn slot other (.space slot (.copy target))
  | destroy : ActsOn slot other (.space slot .destroy)
  | drop : ActsOn slot other (.space slot .drop)
  | store (address : UInt64) (byte : UInt8) : ActsOn slot other (.space slot (.poke address [byte]))

namespace Session

variable {n : Nat} {s changed : Session n} {slot other : SlotId}

/-- A space in a slot is the same before and after, and so are the contents of its frames. -/
def Spares (other : SlotId) (s changed : Session n) : Prop :=
  ∀ space pool, space? other s = some (space, pool) →
    ∃ next, space? other changed = some (space, next) ∧
      ∀ frame ∈ space.table.frames, next.memory.contents frame = pool.memory.contents frame

theorem Spares.refl (other : SlotId) (s : Session n) : Spares other s s :=
  fun _ pool hspace => ⟨pool, hspace, fun _ _ => rfl⟩

theorem Spares.trans {last : Session n} (h : Spares other s changed)
    (hlast : Spares other changed last) : Spares other s last := by
  intro space pool hspace
  obtain ⟨next, hnext, hcontents⟩ := h space pool hspace
  obtain ⟨final, hfinal, hsame⟩ := hlast space next hnext
  exact ⟨final, hfinal, fun frame hframe => (hsame frame hframe).trans (hcontents frame hframe)⟩

theorem spares_of_same (hpools : changed.pools = s.pools)
    (hslot : changed.spaces.get? other = s.spaces.get? other) : Spares other s changed := by
  intro space pool hspace
  obtain ⟨hspace, hpool⟩ := space?_eq_some_iff.mp hspace
  exact ⟨pool, space?_eq_some_iff.mpr ⟨hslot.trans hspace, hpools ▸ hpool⟩, fun _ _ => rfl⟩

theorem spares_of_pool {id : PoolId} {pool next : FramePool} (hpool : s.pools[id]? = some pool)
    (hpools : changed.pools = s.pools.setIfInBounds id next)
    (hslot : changed.spaces.get? other = s.spaces.get? other)
    (hcontents : ∀ space, s.spaces.get? other = some space → space.table.pool = id →
      ∀ frame ∈ space.table.frames, next.memory.contents frame = pool.memory.contents frame) :
    Spares other s changed := by
  intro space found hspace
  obtain ⟨hspace, hfound⟩ := space?_eq_some_iff.mp hspace
  by_cases hid : space.table.pool = id
  · subst hid
    obtain rfl := Option.some.inj (hpool.symm.trans hfound)
    refine ⟨next, space?_eq_some_iff.mpr ⟨hslot.trans hspace, ?_⟩, hcontents space hspace rfl⟩
    rw [hpools, Array.getElem?_setIfInBounds_self_of_lt (Array.getElem?_eq_some_iff.mp hpool).1]
  · refine ⟨found, space?_eq_some_iff.mpr ⟨hslot.trans hspace, ?_⟩, fun _ _ => rfl⟩
    rw [hpools, Array.getElem?_setIfInBounds_ne (Ne.symm hid)]
    exact hfound

section Steps

variable {loose : List PageTable} {held : Holdings} (h : Balances s loose held)

include h

theorem Balances.exists_owned {space : AddressSpace} {pool : FramePool}
    (hspace : space? slot s = some (space, pool)) :
    ∃ owned, PageTable.Backed owned (space.table, pool) ∧
      ∀ other another, other ≠ slot → s.spaces.get? other = some another →
        another.table.pool = space.table.pool → another.table.frames ⊆ owned := by
  obtain ⟨hslot, hpool⟩ := space?_eq_some_iff.mp hspace
  refine ⟨_, (h.front (liveTables_perm_of_space hslot)).backed hpool, ?_⟩
  intro other another hne hother hid frame hframe
  have hstays : another.table ∈ liveTables { s with spaces := s.spaces.erase slot } := by
    have hthere := (s.spaces.get?_erase slot other).trans ((if_neg hne).trans hother)
    exact mem_liveTables_of_space hthere
  refine List.mem_append_left _ ?_
  rw [← hid]
  exact frames_subset_framesOn (List.mem_append_right loose hstays) hframe

theorem spares_putSpace (hne : other ≠ slot) {t next : AddressSpace × FramePool}
    (hspace : space? slot s = some t)
    (hnext : PageTable.Conserves (AddressSpace.part t) (AddressSpace.part next)) :
    Spares other s (putSpace slot next s) := by
  obtain ⟨owned, hbacked, hothers⟩ := h.exists_owned hspace
  obtain ⟨hsame, -, hcontents⟩ := hnext owned hbacked
  refine spares_of_pool (space?_eq_some_iff.mp hspace).2
    (congrArg (s.pools.setIfInBounds · next.2) hsame) ?_ ?_
  · exact (s.spaces.get?_put slot other next.1).trans (if_neg hne)
  · intro space hother hid frame hframe
    exact hcontents frame (hothers other space hne hother hid hframe)

theorem spares_onSpace {α : Type} (hne : other ≠ slot) {x : Action (AddressSpace × FramePool) α}
    (hx : ∀ t, PageTable.Conserves (AddressSpace.part t) (AddressSpace.part (x t).state)) :
    Spares other s (onSpace slot x s).state := by
  cases hspace : space? slot s with
  | none =>
      rw [onSpace_of_none hspace]
      exact Spares.refl other s
  | some t =>
      rw [onSpace_of_some hspace]
      exact spares_putSpace h hne hspace (hx t)

theorem spares_onProcess {α : Type} (hne : other ≠ slot) {x : Action (Context × Machines n) α}
    (hx : Context.Conserving x) : Spares other s (onProcess slot x s).state := by
  rw [onProcess, Action.run_on]
  cases hspace : space? slot s with
  | none =>
      rw [hx.absent s.machines]
      exact spares_of_same rfl rfl
  | some t =>
      obtain ⟨next, hnext, hconserves⟩ := hx.conserves t s.machines
      rw [hnext]
      exact (spares_putSpace h hne hspace hconserves).trans (spares_of_same rfl rfl)

omit h in
theorem spares_onLoad {α : Type} (hne : other ≠ slot) (x : Action (AddressSpace × Machines n) α) :
    Spares other s (onLoad slot x s).state := by
  rw [onLoad, Action.onSome]
  split
  · exact spares_of_same rfl ((Slots.get?_put _ slot other _).trans (if_neg hne))
  · exact Spares.refl other s

theorem spares_eraseSpace (hne : other ≠ slot) {x : Action (AddressSpace × FramePool) Unit}
    (hx : ∀ t, PageTable.Conserves (AddressSpace.part t) (AddressSpace.part (x t).state)) :
    Spares other s ((onSpace slot x >>= fun _ => do
      Action.update fun s : Session n => { s with spaces := s.spaces.erase slot }
      return Answer.nothing) s).state := by
  have hspared := spares_onSpace h hne hx
  rw [Action.state_bind]
  cases (onSpace slot x s).result with
  | ok _ =>
      exact hspared.trans (spares_of_same rfl ((Slots.get?_erase _ slot other).trans (if_neg hne)))
  | error _ => exact hspared

end Steps

section Placed

variable {loose : List PageTable} {held : Holdings}

theorem spares_giveUpTable {table : PageTable} (h : Balances s (table :: loose) held) :
    Spares other s (giveUpTable table s).state := by
  obtain ⟨pool, hpool⟩ := h.exists_pool List.mem_cons_self
  obtain ⟨-, -, hcontents⟩ := PageTable.conserves_destroy (table, pool) _ (h.backed hpool)
  rw [giveUpTable, onPool_of_some hpool]
  refine spares_of_pool hpool rfl rfl fun space hspace hid frame hframe => hcontents frame ?_
  have hlive := List.mem_append_right loose (mem_liveTables_of_space hspace)
  rw [← hid]
  exact List.mem_append_left _ (frames_subset_framesOn hlive hframe)

theorem spares_placeSpace (hne : other ≠ slot) {space : AddressSpace}
    (h : Balances s (space.table :: loose) held) :
    Spares other s (placeSpace slot space s).state := by
  have hput : Spares other s { s with spaces := s.spaces.put slot space } :=
    spares_of_same rfl ((s.spaces.get?_put slot other space).trans (if_neg hne))
  have hplaced := balances_insertSpace slot h
  rw [state_placeSpace]
  cases hold : (s.spaces.get? slot).map AddressSpace.table with
  | none => exact hput
  | some old =>
      rw [hold] at hplaced
      exact hput.trans (spares_giveUpTable hplaced)

theorem spares_copySpace (h : Balances s loose held) {space : AddressSpace}
    (hspace : s.spaces.get? slot = some space) {target : SlotId} (hne : other ≠ target) :
    Spares other s ((onPool space.table.pool space.copy >>= fun copy => do
      placeSpace target copy
      return Answer.done) s).state := by
  have hlive := mem_liveTables_of_space hspace
  have hcopies := AddressSpace.copies_copy (h.wellFormed _ (List.mem_append_right _ hlive))
  obtain ⟨pool, next, events, hpool, hcontents, hrun⟩ := onPool_of_copies h hlive hcopies
  have hspared : Spares other s (putPool space.table.pool next s) :=
    spares_of_pool hpool rfl rfl fun found hfound hid =>
      hcontents found.table (mem_liveTables_of_space hfound) hid
  rcases hrun with ⟨copy, hrun, hnext⟩ | ⟨hrun, -, -⟩
  · rw [Action.bind_of_ok hrun, Outcome.state_after, Action.state_bind_pure]
    exact hspared.trans (spares_placeSpace hne hnext)
  · rw [Action.bind_of_error hrun]
    exact hspared

end Placed

section Stored

variable {space : AddressSpace} {pool : FramePool} {address : VirtualAddress}
  {target : PhysicalAddress}

theorem answer_store (hspace : space? slot s = some (space, pool))
    (haddress : space.physical? address = some target)
    (htarget : target.word.toNat < pool.memory.size) (byte : UInt8) :
    answer (.space slot (.poke address.word [byte])) s =
      ⟨.ok .nothing,
        putPool space.table.pool
          { pool with memory := pool.memory.setByte target.word.toNat byte } s, []⟩ := by
  obtain ⟨hslot, hpool⟩ := space?_eq_some_iff.mp hspace
  have hreach : reach space address.word s = ⟨.ok target, s, []⟩ := by
    simp [reach, haddress]
  have hwrite := onPool_of_some hpool (FramePool.onMemory (Memory.write target [byte]))
  rw [FramePool.onMemory, Action.run_on, Memory.write_singleton _ _ htarget] at hwrite
  rw [answer, answerSpace, named_bind, hslot]
  exact (Action.bind_of_ok hreach).trans (congrArg (Outcome.after · []) (Action.bind_of_ok hwrite))

theorem reach_of_outside (space : AddressSpace) {word : UInt64} {assertion : Violation}
    (hword : VirtualAddress.ofWord word = .error assertion) (s : Session n) :
    reach space word s = ⟨.error (.violated assertion), s, []⟩ := by
  simp [reach, hword]

theorem reach_of_unmapped (haddress : space.physical? address = none) (s : Session n) :
    reach space address.word s = ⟨.error .absent, s, []⟩ := by
  simp [reach, haddress]

theorem answer_store_of_stopped {word : UInt64} {reason : Stop}
    (hslot : s.spaces.get? slot = some space)
    (hreach : reach space word s = ⟨.error reason, s, []⟩) (byte : UInt8) :
    answer (.space slot (.poke word [byte])) s = ⟨.error reason, s, []⟩ := by
  rw [answer, answerSpace, named_bind, hslot]
  exact Action.bind_of_error hreach

theorem state_answer_store_of_absent {word : UInt64}
    (habsent : ∀ space address target, s.spaces.get? slot = some space → address.word = word →
      space.physical? address ≠ some target) (byte : UInt8) :
    (answer (.space slot (.poke word [byte])) s).state = s := by
  cases hslot : s.spaces.get? slot with
  | none =>
      rw [answer, answerSpace, named_bind, hslot]
  | some space =>
      cases hword : VirtualAddress.ofWord word with
      | error assertion =>
          rw [answer_store_of_stopped hslot (reach_of_outside space hword s)]
      | ok address =>
          obtain rfl := VirtualAddress.ofWord_eq_ok_iff.mp hword
          cases hphysical : space.physical? address with
          | none => rw [answer_store_of_stopped hslot (reach_of_unmapped hphysical s)]
          | some target => exact absurd hphysical (habsent space address target hslot rfl)

end Stored

section Isolated

variable {held : Holdings} {space another : AddressSpace} {pool : FramePool}
  {address : VirtualAddress} {target : PhysicalAddress}

theorem mem_frames_of_physical? (h : space.physical? address = some target) :
    ∃ frame ∈ space.table.frames, frame.isPageAligned = true ∧
      target.frameIndex = frame.frameIndex ∧
      target.word.toNat = frame.word.toNat + address.offset := by
  obtain ⟨entry, hentry, hword⟩ := AddressSpace.physical?_eq_some h
  obtain ⟨_, hsame, hindex, -⟩ := AddressSpace.frameIndex_of_physical? h
  obtain rfl := Option.some.inj (hentry.symm.trans hsame)
  exact ⟨entry.frame, PageTable.frame_mem_frames hentry, entry.isPageAligned_frame, hindex, hword⟩

variable (h : Balances s [] held) (hspace : space? slot s = some (space, pool))

include h hspace

theorem lt_size_of_physical? (hx : space.physical? address = some target) :
    target.word.toNat < pool.memory.size := by
  obtain ⟨owned, hbacked, -⟩ := h.exists_owned hspace
  obtain ⟨entry, hentry, -⟩ := AddressSpace.physical?_eq_some hx
  obtain ⟨found, -, hfound, hsize⟩ := AddressSpace.exists_translation hbacked hentry
  obtain rfl := Option.some.inj (hx.symm.trans hfound)
  exact hsize

theorem frames_apart (hne : other ≠ slot) (hother : s.spaces.get? other = some another)
    (hpool : another.table.pool = space.table.pool) (hx : space.physical? address = some target)
    {frame : PhysicalAddress} (hframe : frame ∈ another.table.frames) :
    frame.frameIndex ≠ target.frameIndex := by
  obtain ⟨owned, hbacked, hothers⟩ := h.exists_owned hspace
  obtain ⟨found, hfound, haligned, hindex, -⟩ := mem_frames_of_physical? hx
  have howned := hothers other another hne hother hpool hframe
  intro heq
  have hsame := PhysicalAddress.eq_of_frameIndex_eq
    (hbacked.handedOut.isPageAligned (List.mem_append_right _ (List.mem_append_right _ howned)))
    haligned (heq.trans hindex)
  exact List.disjoint_of_nodup_append hbacked.handedOut.nodup hfound (hsame ▸ howned)

theorem physical?_inj_on (hother : s.spaces.get? other = some another)
    (hpool : another.table.pool = space.table.pool) {further : VirtualAddress}
    (hx : space.physical? address = some target) (hy : another.physical? further = some target) :
    slot = other ∧ address = further := by
  obtain ⟨owned, hbacked, -⟩ := h.exists_owned hspace
  by_cases hne : other = slot
  · subst hne
    obtain rfl := Option.some.inj ((space?_eq_some_iff.mp hspace).1.symm.trans hother)
    exact ⟨rfl, AddressSpace.physical?_injective hbacked.wellFormed
      hbacked.handedOut.nodup.of_append_left hx hy⟩
  · obtain ⟨frame, hframe, -, hindex, -⟩ := mem_frames_of_physical? hy
    exact absurd hindex.symm (frames_apart h hspace hne hother hpool hx hframe)

theorem spares_store (hne : other ≠ slot) (hx : space.physical? address = some target)
    (byte : UInt8) :
    Spares other s (answer (.space slot (.poke address.word [byte])) s).state := by
  rw [answer_store hspace hx (lt_size_of_physical? h hspace hx)]
  refine spares_of_pool (space?_eq_some_iff.mp hspace).2 rfl rfl ?_
  intro another hother hpool frame hframe
  exact Memory.contents_setByte_of_ne _ byte (frames_apart h hspace hne hother hpool hx hframe)

end Isolated

/-- Whatever is done to a space or in it spares the space in another slot. -/
theorem spares_answer {held : Holdings} (h : Balances s [] held) (hne : other ≠ slot)
    {request : Request} (hacts : request.ActsOn slot other) :
    Spares other s (answer request s).state := by
  cases hacts with
  | fault id access word =>
      rw [answer, named_bind]
      cases s.processors[id]? with
      | none => exact Spares.refl other s
      | some processor =>
          simp only [answerProcessor, Action.state_bind_pure]
          exact spares_onProcess h hne (Context.conserving_handleFault processor access word)
  | rawFault id code word =>
      rw [answer, named_bind]
      cases s.processors[id]? with
      | none => exact Spares.refl other s
      | some processor =>
          simp only [answerProcessor, Action.state_bind_pure]
          exact spares_onProcess h hne (Context.conserving_handleRawFault processor code word)
  | define address length permissions =>
      rw [answer, answerSpace, Action.state_bind_pure]
      exact spares_onSpace h hne (AddressSpace.conserves_first
        (AddressSpace.blind_defineRegion address length permissions))
  | stack =>
      rw [answer, answerSpace, Action.state_bind_pure]
      exact spares_onSpace h hne (AddressSpace.conserves_first AddressSpace.blind_defineStack)
  | beginLoad =>
      rw [answer, answerSpace, Action.state_bind_pure]
      exact spares_onSpace h hne (AddressSpace.conserves_first AddressSpace.blind_beginLoad)
  | endLoad id =>
      rw [answer, answerSpace, named_bind]
      cases s.processors[id]? with
      | none => exact Spares.refl other s
      | some processor =>
          simp only [Action.state_bind_pure]
          exact spares_onLoad hne _
  | copy target htarget =>
      rw [answer, answerSpace, named_bind]
      cases hspace : s.spaces.get? slot with
      | none => exact Spares.refl other s
      | some space => exact spares_copySpace h hspace htarget
  | destroy =>
      rw [answer, answerSpace]
      exact spares_eraseSpace h hne AddressSpace.conserves_discard
  | drop =>
      rw [answer, answerSpace]
      exact spares_eraseSpace h hne AddressSpace.conserves_discard
  | store word byte =>
      by_cases habsent : ∀ space address target, s.spaces.get? slot = some space →
          address.word = word → space.physical? address ≠ some target
      · rw [state_answer_store_of_absent habsent]
        exact Spares.refl other s
      · push Not at habsent
        obtain ⟨space, address, target, hslot, rfl, hx⟩ := habsent
        obtain ⟨pool, hspace⟩ := h.exists_space? hslot
        exact spares_store h hspace hne hx byte

/-- What it means that the spaces of a session do not reach each other. -/
structure Isolated (s : Session n) : Prop where
  injective : ∀ slot other space another address further target,
    s.spaces.get? slot = some space → s.spaces.get? other = some another →
      another.table.pool = space.table.pool → space.physical? address = some target →
        another.physical? further = some target → slot = other ∧ address = further
  inMemory : ∀ slot space pool address target, space? slot s = some (space, pool) →
    space.physical? address = some target → target.word.toNat < pool.memory.size
  spared : ∀ slot other request, other ≠ slot → Request.ActsOn slot other request →
    ∀ space pool, space? other s = some (space, pool) →
      ∃ next, space? other (answer request s).state = some (space, next) ∧
        ∀ address target, space.physical? address = some target →
          ∃ byte, pool.memory.byte? target.word.toNat = some byte ∧
            next.memory.byte? target.word.toNat = some byte
  stored : ∀ slot space pool address target byte, space? slot s = some (space, pool) →
    space.physical? address = some target →
      ∃ next, space? slot (answer (.space slot (.poke address.word [byte])) s).state =
          some (space, next) ∧
        next.memory.byte? target.word.toNat = some byte ∧
        ∀ further another, further ≠ address → space.physical? further = some another →
          next.memory.byte? another.word.toNat = pool.memory.byte? another.word.toNat

theorem byte?_of_spares {held after : Holdings} (h : Balances s [] held)
    (hafter : Balances changed [] after) (hspares : Spares other s changed)
    {space : AddressSpace} {pool : FramePool} (hspace : space? other s = some (space, pool)) :
    ∃ next, space? other changed = some (space, next) ∧
      ∀ address target, space.physical? address = some target →
        ∃ byte, pool.memory.byte? target.word.toNat = some byte ∧
          next.memory.byte? target.word.toNat = some byte := by
  obtain ⟨next, hnext, hcontents⟩ := hspares space pool hspace
  refine ⟨next, hnext, fun address target hx => ?_⟩
  obtain ⟨owned, hbacked, -⟩ := h.exists_owned hspace
  obtain ⟨others, hthen, -⟩ := hafter.exists_owned hnext
  obtain ⟨frame, hframe, -, -, hword⟩ := mem_frames_of_physical? hx
  have hsame := hbacked.handedOut.sameBytes_of_mem hthen.handedOut
    (List.mem_append_left owned hframe) (List.mem_append_left others hframe)
    (hcontents frame hframe)
  rw [hword]
  exact hsame address.offset

theorem stored_of_physical? {held : Holdings} (h : Balances s [] held) {space : AddressSpace}
    {pool : FramePool} (hspace : space? slot s = some (space, pool)) {address : VirtualAddress}
    {target : PhysicalAddress} (hx : space.physical? address = some target) (byte : UInt8) :
    ∃ next, space? slot (answer (.space slot (.poke address.word [byte])) s).state =
        some (space, next) ∧
      next.memory.byte? target.word.toNat = some byte ∧
      ∀ further another, further ≠ address → space.physical? further = some another →
        next.memory.byte? another.word.toNat = pool.memory.byte? another.word.toNat := by
  obtain ⟨hslot, -⟩ := space?_eq_some_iff.mp hspace
  have htarget := lt_size_of_physical? h hspace hx
  have hbyte := fun a => pool.memory.byte?_setByte a byte htarget
  refine ⟨{ pool with memory := pool.memory.setByte target.word.toNat byte }, ?_, ?_, ?_⟩
  · rw [answer_store hspace hx htarget]
    exact space?_putPool hspace _
  · exact (hbyte _).trans (if_pos rfl)
  · intro further another hne hother
    refine (hbyte _).trans (if_neg fun heq => hne ?_)
    obtain rfl : another = target := congrArg PhysicalAddress.mk (UInt64.toNat_inj.mp heq)
    exact (physical?_inj_on h hspace hslot rfl hother hx).2

/-- In every reachable state the spaces do not reach each other. -/
theorem isolated_of_reachable {held : Holdings} (h : Reachable s held) : Isolated s where
  injective slot other space another address further target hspace hother hpool hx hy := by
    obtain ⟨pool, hfound⟩ := h.balances.exists_space? hspace
    exact physical?_inj_on h.balances hfound hother hpool hx hy
  inMemory slot space pool address target hspace hx := lt_size_of_physical? h.balances hspace hx
  spared slot other request hne hacts space pool hspace := by
    have honest : request.Honest s held := by cases hacts <;> trivial
    exact byte?_of_spares h.balances (h.step request honest).balances
      (spares_answer h.balances hne hacts) hspace
  stored slot space pool address target byte hspace hx :=
    stored_of_physical? h.balances hspace hx byte

/-- A session with two spaces on one pool, each with a page of its own at the same address. -/
def neighbours : Session 1 :=
  (run (ofLimits #[2] #[.sole])
    [.space 0 (.new 0), .space 0 (.define 0x1000 0x1000 .readWrite),
      .processor 0 (.fault 0 .write 0x1000), .space 1 (.new 0),
      .space 1 (.define 0x1000 0x1000 .readWrite), .processor 0 (.fault 1 .write 0x1000)]).2

theorem reachable_neighbours : Reachable neighbours [] :=
  (reachable_ofLimits #[2] #[.sole]).run
    (⟨trivial, trivial, trivial, trivial, trivial, trivial, trivial⟩ :
      HonestRun (ofLimits #[2] #[.sole]) []
        [.space 0 (.new 0), .space 0 (.define 0x1000 0x1000 .readWrite),
          .processor 0 (.fault 0 .write 0x1000), .space 1 (.new 0),
          .space 1 (.define 0x1000 0x1000 .readWrite), .processor 0 (.fault 1 .write 0x1000)])

theorem isolated_of_neighbours :
    Reachable neighbours [] ∧
      (neighbours.spaces.get? 0).bind (·.physical? ⟨0x1000⟩) = some ⟨0⟩ ∧
      (neighbours.spaces.get? 1).bind (·.physical? ⟨0x1000⟩) = some ⟨0x1000⟩ ∧
      Isolated neighbours :=
  ⟨reachable_neighbours, by decide +kernel, by decide +kernel,
    isolated_of_reachable reachable_neighbours⟩

end Session

end DemandPaging
