import DemandPaging.Proofs.Session.Deeds
import DemandPaging.Proofs.Session.Isolation
import DemandPaging.Proofs.Twins

namespace DemandPaging

/-- What can be done with a single space, whichever slot it is in. -/
inductive Use
  | define (address length : UInt64) (permissions : Permissions)
  | stack
  | beginLoad
  | endLoad (processor : Nat)
  | fault (processor : Nat) (access : Access) (address : UInt64)
  | rawFault (processor : Nat) (code : UInt32) (address : UInt64)
  | store (address : UInt64) (byte : UInt8)

namespace Use

def on (slot : SlotId) : Use → Request
  | define address length permissions => .space slot (.define address length permissions)
  | stack => .space slot .stack
  | beginLoad => .space slot .beginLoad
  | endLoad processor => .space slot (.endLoad processor)
  | fault processor access address => .processor processor (.fault slot access address)
  | rawFault processor code address => .processor processor (.rawFault slot code address)
  | store address byte => .space slot (.poke address [byte])

theorem honest_on {n : Nat} (use : Use) (slot : SlotId) (s : Session n) (held : Holdings) :
    (use.on slot).Honest s held := by
  cases use <;> trivial

end Use

/-- What is reported of a request, and of the mappings that it has installed, apart from frames. -/
def Session.Report.seen (report : Session.Report) :
    Except Stop Answer × List (Nat × VirtualAddress × Bool × Bool) :=
  (report.result, installs report.events)

namespace Session

variable {n : Nat} {α : Type} {s t : Session n} {slot other : SlotId}

/-- Two sessions whose machines resemble each other, with twins in two slots. -/
structure Twinned (slot other : SlotId) (s t : Session n) : Prop where
  processors : t.processors = s.processors
  machines : s.machines.Resemble t.machines
  spaces : ∃ one another, space? slot s = some one ∧ space? other t = some another ∧
    AddressSpace.Twins one another

section Steps

theorem agrees_onSpace (h : Twinned slot other s t) {x : Action AddressSpace α}
    (hx : AddressSpace.Blind x) :
    Outcome.Agrees (Twinned slot other) Eq (onSpace slot (Action.first x) s)
      (onSpace other (Action.first x) t) := by
  obtain ⟨one, another, hone, hother, htwins⟩ := h.spaces
  have hagrees := AddressSpace.agrees_of_blind hx htwins
  have hpool : ∀ t : AddressSpace × FramePool,
      (Action.first x t).state.1.table.pool = t.1.table.pool :=
    fun t => congrArg PageTable.pool (hx.table t.1)
  rw [onSpace_of_some hone, onSpace_of_some hother]
  exact hagrees.within ⟨h.processors, h.machines, _, _, space?_putSpace hone (hpool one),
    space?_putSpace hother (hpool another), hagrees.state⟩

theorem agrees_onLoad (h : Twinned slot other s t) (processor : Processor n) :
    Outcome.Agrees (Twinned slot other) Eq (onLoad slot (AddressSpace.endLoad processor) s)
      (onLoad other (AddressSpace.endLoad processor) t) := by
  obtain ⟨one, another, hone, hother, htwins⟩ := h.spaces
  have hagrees := AddressSpace.agrees_endLoad processor htwins h.machines
  obtain ⟨⟨space, hspace, htwin⟩, hmachines⟩ := hagrees.state
  have hstill := htwins.redeclared space
  rw [onLoad_of_some (space?_eq_some_iff.mp hone).1,
    onLoad_of_some (space?_eq_some_iff.mp hother).1]
  refine hagrees.within ⟨h.processors, hmachines, _, _, ?_, ?_, hstill⟩
  · rw [hspace]
    exact space?_put hone space _
  · rw [htwin]
    exact space?_put hother space _

variable {held rest : Holdings} (hs : Balances s [] held) (ht : Balances t [] rest)
  (h : Twinned slot other s t)

include hs ht h

theorem agrees_onProcess {x : Action (Context × Machines n) Unit} (hx : Context.Conserving x)
    (halike : ∀ one another owned others, PageTable.Backed owned (AddressSpace.part one) →
      PageTable.Backed others (AddressSpace.part another) → AddressSpace.Twins one another →
        Outcome.Agrees Context.Alike Eq (x (some one, s.machines)) (x (some another, t.machines))) :
    Outcome.Agrees (Twinned slot other) Eq (onProcess slot x s) (onProcess other x t) := by
  obtain ⟨one, another, hone, hother, htwins⟩ := h.spaces
  obtain ⟨owned, hbacked⟩ := hs.exists_backed hone
  obtain ⟨others, hbackedToo⟩ := ht.exists_backed hother
  have hagrees := halike one another owned others hbacked hbackedToo htwins
  obtain ⟨next, hnext, hconserves⟩ := hx.conserves one s.machines
  obtain ⟨last, hlast, hconservesToo⟩ := hx.conserves another t.machines
  rcases hrun : x (some one, s.machines) with ⟨result, ⟨context, machines⟩, events⟩
  rcases htwin : x (some another, t.machines) with ⟨ending, ⟨found, changed⟩, seen⟩
  rw [hrun, htwin] at hagrees
  rw [hrun] at hnext
  rw [htwin] at hlast
  obtain rfl : context = some next := hnext
  obtain rfl : found = some last := hlast
  obtain ⟨⟨_, _, hfirst, hsecond, hstill⟩, hmachines⟩ := hagrees.state
  obtain rfl := Option.some.inj hfirst
  obtain rfl := Option.some.inj hsecond
  rw [onProcess_of_some hone hrun, onProcess_of_some hother htwin]
  exact hagrees.within ⟨h.processors, hmachines, _, _,
    space?_putSpace hone (hconserves owned hbacked).1,
    space?_putSpace hother (hconservesToo others hbackedToo).1, hstill⟩

theorem agrees_store (word : UInt64) (byte : UInt8) :
    Outcome.Agrees (Twinned slot other) Eq (answer (.space slot (.poke word [byte])) s)
      (answer (.space other (.poke word [byte])) t) := by
  obtain ⟨⟨space, pool⟩, ⟨twin, last⟩, hone, hother, htwins⟩ := h.spaces
  obtain ⟨owned, hbacked⟩ := hs.exists_backed hone
  obtain ⟨others, hbackedToo⟩ := ht.exists_backed hother
  obtain ⟨hslot, -⟩ := space?_eq_some_iff.mp hone
  obtain ⟨htwin, -⟩ := space?_eq_some_iff.mp hother
  cases hword : VirtualAddress.ofWord word with
  | error assertion =>
      rw [answer_store_of_stopped hslot (reach_of_outside space hword s),
        answer_store_of_stopped htwin (reach_of_outside twin hword t)]
      exact .stopped (.violated assertion) h rfl
  | ok address =>
      obtain rfl := VirtualAddress.ofWord_eq_ok_iff.mp hword
      cases hentry : space.table.find? address.pageNumber with
      | none =>
          have habsent : twin.table.find? address.pageNumber = none :=
            PageTable.contains_eq_false_iff.mp ((htwins.contains_eq address.pageNumber).trans
              (PageTable.contains_eq_false_iff.mpr hentry))
          rw [answer_store_of_stopped hslot
              (reach_of_unmapped (AddressSpace.physical?_eq_none hentry) s),
            answer_store_of_stopped htwin
              (reach_of_unmapped (AddressSpace.physical?_eq_none habsent) t)]
          exact .stopped .absent h rfl
      | some entry =>
          obtain ⟨another, hanother, -⟩ := htwins.exists_entry hentry
          obtain ⟨target, -, hphysical, htarget⟩ := AddressSpace.exists_translation hbacked hentry
          obtain ⟨further, -, htranslated, hfurther⟩ :=
            AddressSpace.exists_translation hbackedToo hanother
          rw [answer_store hone hphysical htarget, answer_store hother htranslated hfurther]
          exact .done rfl ⟨h.processors, h.machines, _, _, space?_putPool hone _,
            space?_putPool hother _,
            htwins.setByte hbacked hbackedToo hphysical htranslated byte⟩ rfl

omit hs ht in
theorem agrees_processor (id : Nat) {f g : Processor n → Action (Session n) Answer}
    (hfg : ∀ processor, Outcome.Agrees (Twinned slot other) Eq (f processor s) (g processor t)) :
    Outcome.Agrees (Twinned slot other) Eq
      ((named (fun s : Session n => s.processors[id]?) >>= f) s)
      ((named (fun s : Session n => s.processors[id]?) >>= g) t) := by
  rw [named_bind, named_bind, h.processors]
  cases s.processors[id]? with
  | none => exact .stopped .absent h rfl
  | some processor => exact hfg processor

/-- Whatever is done with a space and its twin, the same comes out, and they stay twins. -/
theorem agrees_answer (use : Use) :
    Outcome.Agrees (Twinned slot other) Eq (answer (use.on slot) s) (answer (use.on other) t) := by
  cases use with
  | define address length permissions =>
      exact (agrees_onSpace h
        (AddressSpace.blind_defineRegion address length permissions)).bind_pure _
  | stack => exact (agrees_onSpace h AddressSpace.blind_defineStack).bind_pure _
  | beginLoad => exact (agrees_onSpace h AddressSpace.blind_beginLoad).bind_pure _
  | endLoad id =>
      exact agrees_processor h id fun processor => (agrees_onLoad h processor).bind_pure _
  | fault id access word =>
      refine agrees_processor h id fun processor => Outcome.Agrees.bind_pure ?_ _
      exact agrees_onProcess hs ht h (Context.conserving_handleFault processor access word)
        fun _ _ _ _ hone hother htwins =>
          Context.alike_handleFault htwins hone hother h.machines processor access word
  | rawFault id code word =>
      refine agrees_processor h id fun processor => Outcome.Agrees.bind_pure ?_ _
      exact agrees_onProcess hs ht h (Context.conserving_handleRawFault processor code word)
        fun _ _ _ _ hone hother htwins =>
          Context.alike_handleRawFault htwins hone hother h.machines processor code word
  | store word byte => exact agrees_store hs ht h word byte

end Steps

/-- Two sessions with spaces that look alike, and with machines that resemble each other. -/
def LookAlike (slot other : SlotId) (s t : Session n) : Prop :=
  s.machines.Resemble t.machines ∧ ∃ one another, space? slot s = some one ∧
    space? other t = some another ∧ AddressSpace.LooksLike one another

theorem Twinned.lookAlike {held rest : Holdings} (hs : Balances s [] held) (ht : Balances t [] rest)
    (h : Twinned slot other s t) : LookAlike slot other s t := by
  obtain ⟨one, another, hone, hother, htwins⟩ := h.spaces
  obtain ⟨owned, hbacked⟩ := hs.exists_backed hone
  obtain ⟨others, hbackedToo⟩ := ht.exists_backed hother
  exact ⟨h.machines, one, another, hone, hother, htwins.looksLike hbacked hbackedToo⟩

/-- Two runs that do the same with twins report the same, step by step. -/
theorem lookAlike_of_run {held rest : Holdings} (hs : Reachable s held) (ht : Reachable t rest)
    (h : Twinned slot other s t) (uses : List Use) :
    (run s (uses.map (Use.on slot))).1.map Report.seen =
        (run t (uses.map (Use.on other))).1.map Report.seen ∧
      LookAlike slot other (run s (uses.map (Use.on slot))).2
        (run t (uses.map (Use.on other))).2 := by
  induction uses generalizing s t held rest with
  | nil => exact ⟨rfl, h.lookAlike hs.balances ht.balances⟩
  | cons use uses ih =>
      have hagrees := agrees_answer hs.balances ht.balances h use
      obtain ⟨hreports, hlast⟩ := ih (hs.step _ (use.honest_on slot s held))
        (ht.step _ (use.honest_on other t rest)) hagrees.state
      refine ⟨?_, hlast⟩
      have hseen : ((answer (use.on slot) s).result, installs (answer (use.on slot) s).events) =
          ((answer (use.on other) t).result, installs (answer (use.on other) t).events) := by
        rw [hagrees.result_eq, hagrees.installs_eq]
      exact congrArg₂ List.cons hseen hreports

section Copied

variable {loose : List PageTable} {held : Holdings}

theorem memory_giveUpTable {table : PageTable} (h : Balances s (table :: loose) held)
    (id : PoolId) :
    (giveUpTable table s).state.pools[id]?.map FramePool.memory =
      s.pools[id]?.map FramePool.memory := by
  obtain ⟨pool, hpool⟩ := h.exists_pool List.mem_cons_self
  obtain ⟨events, hdestroy⟩ := PageTable.destroy_of_handedOut (h.backed hpool).handedOut
  rw [giveUpTable, onPool_of_some hpool, Action.consuming, hdestroy]
  change (s.pools.setIfInBounds table.pool (pool.takeBackAll table.frames))[id]?.map _ = _
  by_cases hid : table.pool = id
  · subst hid
    rw [Array.getElem?_setIfInBounds_self_of_lt (Array.getElem?_eq_some_iff.mp hpool).1, hpool,
      Option.map_some, Option.map_some, FramePool.memory_takeBackAll]
  · rw [Array.getElem?_setIfInBounds_ne hid]

theorem memory_placeSpace {space : AddressSpace} (h : Balances s (space.table :: loose) held)
    (slot : SlotId) (id : PoolId) :
    (placeSpace slot space s).state.pools[id]?.map FramePool.memory =
      s.pools[id]?.map FramePool.memory := by
  have hplaced := balances_insertSpace slot h
  rw [state_placeSpace]
  cases hold : (s.spaces.get? slot).map AddressSpace.table with
  | none => rfl
  | some old =>
      rw [hold] at hplaced
      exact memory_giveUpTable hplaced id

theorem twinned_of_copied (h : Balances s [] held) {target : SlotId} (hne : slot ≠ target)
    {copied : Session n} {events : List Event}
    (hcopy : answer (.space slot (.copy target)) s = ⟨.ok .done, copied, events⟩) :
    Twinned slot target copied copied := by
  refine ⟨rfl, .refl _, ?_⟩
  cases hslot : s.spaces.get? slot with
  | none =>
      rw [answer, answerSpace, named_bind, hslot] at hcopy
      cases hcopy
  | some space =>
      have hspace := h.wellFormed _ (mem_liveTables_of_space hslot)
      obtain ⟨pool, owned, hpool, -, hframes, hplaced | ⟨-, next, seen, hanswer⟩⟩ :=
        answer_copy h hslot target
      · obtain ⟨-, table, next, seen, htakes, hnext, hanswer⟩ := hplaced
        have hloose : Balances (putPool space.table.pool next s)
            [AddressSpace.table { space with table }] held := hnext
        have hstate := congrArg Outcome.state (hcopy.symm.trans hanswer)
        rw [Outcome.state_after, Action.state_bind_pure] at hstate
        have hspaces := (congrArg Session.spaces hstate).trans (spaces_placeSpace target _ _)
        have hmemory := memory_placeSpace hloose target space.table.pool
        rw [← hstate, putPool, Array.getElem?_setIfInBounds_self_of_lt
          (Array.getElem?_eq_some_iff.mp hpool).1, Option.map_some] at hmemory
        obtain ⟨last, hlast, hsame⟩ := Option.map_eq_some_iff.mp hmemory
        refine ⟨(space, last), ({ space with table }, last), space?_eq_some_iff.mpr ⟨?_, hlast⟩,
          space?_eq_some_iff.mpr ⟨?_, (congrArg (copied.pools[·]?) htakes.pool).trans hlast⟩,
          AddressSpace.twins_of_takesIn hspace hframes htakes hsame⟩
        · rw [hspaces, Slots.get?_put, if_neg hne]
          exact hslot
        · rw [hspaces, Slots.get?_put, if_pos rfl]
      · rw [hanswer] at hcopy
        cases hcopy

/-- A copy behaves like its source. After a copy was made in a reachable state, whatever is done
with the space, or in it, or else with its copy, is answered alike and installs the same mappings up
to their frames. At the end, and so after each step, the spaces look alike, and the caches hold the
same up to frames. It does not matter whether there are frames left, as both runs go without them at
the same time. -/
theorem lookAlike_of_copied (h : Reachable s held) {target : SlotId} (hne : slot ≠ target)
    {copied : Session n} {events : List Event}
    (hcopy : answer (.space slot (.copy target)) s = ⟨.ok .done, copied, events⟩)
    (uses : List Use) :
    (run copied (uses.map (Use.on slot))).1.map Report.seen =
        (run copied (uses.map (Use.on target))).1.map Report.seen ∧
      LookAlike slot target (run copied (uses.map (Use.on slot))).2
        (run copied (uses.map (Use.on target))).2 := by
  have hcopied : Reachable copied held := by
    have hstep := h.step (.space slot (.copy target)) trivial
    rw [hcopy] at hstep
    exact hstep
  exact lookAlike_of_run hcopied hcopied (twinned_of_copied h.balances hne hcopy) uses

theorem result_copy_of_room (h : Balances s [] held) {space : AddressSpace} {pool : FramePool}
    (hspace : space? slot s = some (space, pool)) (target : SlotId)
    (hroom : pool.outstanding + space.table.mappedCount ≤ pool.limit) :
    (answer (.space slot (.copy target)) s).result = .ok .done := by
  obtain ⟨hslot, hpool⟩ := space?_eq_some_iff.mp hspace
  obtain ⟨found, owned, hfound, howned, -, hplaced | ⟨hshort, -⟩⟩ := answer_copy h hslot target
  · obtain ⟨-, table, next, seen, -, hnext, hanswer⟩ := hplaced
    have hloose : Balances (putPool space.table.pool next s)
        [AddressSpace.table { space with table }] held := hnext
    rw [hanswer]
    exact (placed_of_balances hloose target).1
  · have hsame : pool = found := Option.some.inj (hpool.symm.trans hfound)
    subst hsame
    rw [howned.outstanding_eq] at hroom
    exact absurd hroom (Nat.not_le_of_lt hshort)

end Copied

def storedByte : Session 1 :=
  (run (ofLimits #[4] #[.sole])
    [.space 0 (.new 0), .space 0 (.define 0x1000 0x2000 .readWrite),
      .processor 0 (.fault 0 .write 0x1000), .space 0 (.poke 0x1000 [7])]).2

theorem reachable_storedByte : Reachable storedByte [] :=
  (reachable_ofLimits #[4] #[.sole]).run
    (⟨trivial, trivial, trivial, trivial, trivial⟩ : HonestRun (ofLimits #[4] #[.sole]) []
      [.space 0 (.new 0), .space 0 (.define 0x1000 0x2000 .readWrite),
        .processor 0 (.fault 0 .write 0x1000), .space 0 (.poke 0x1000 [7])])

theorem result_copy_of_storedByte :
    (answer (.space 0 (.copy 1)) storedByte).result = .ok .done := by
  have hcounts : (space? 0 storedByte).map (fun t =>
      (t.2.outstanding, t.1.table.mappedCount, t.2.limit)) = some (1, 1, 4) := by
    decide +kernel
  obtain ⟨⟨space, pool⟩, hspace, hcounted⟩ := Option.map_eq_some_iff.mp hcounts
  obtain ⟨houtstanding, hcount, hlimit⟩ : pool.outstanding = 1 ∧ space.table.mappedCount = 1 ∧
      pool.limit = 4 := by
    simpa using hcounted
  exact result_copy_of_room reachable_storedByte.balances hspace 1 (by omega)

/-- Stores to a page that was copied and to one that is touched for the first time. -/
def laterStores : List Use :=
  [.store 0x1001 9, .fault 0 .write 0x2000, .store 0x2000 8, .beginLoad]

theorem lookAlike_of_storedByte :
    ∃ copied events, answer (.space 0 (.copy 1)) storedByte = ⟨.ok .done, copied, events⟩ ∧
      (run copied (laterStores.map (Use.on 0))).1.map Report.seen =
          (run copied (laterStores.map (Use.on 1))).1.map Report.seen ∧
        LookAlike 0 1 (run copied (laterStores.map (Use.on 0))).2
          (run copied (laterStores.map (Use.on 1))).2 := by
  rcases hcopy : answer (.space 0 (.copy 1)) storedByte with ⟨result, copied, events⟩
  have hresult := result_copy_of_storedByte
  rw [hcopy] at hresult
  obtain rfl : result = .ok .done := hresult
  exact ⟨copied, events, rfl,
    lookAlike_of_copied reachable_storedByte (by decide) hcopy laterStores⟩

end Session

end DemandPaging
