import DemandPaging.Proofs.Session.Reachable

namespace DemandPaging

namespace Session

variable {n : Nat}

theorem Reachable.backed {s : Session n} {held : Holdings} (h : Reachable s held) {slot : SlotId}
    {space : AddressSpace} {pool : FramePool} (hspace : space? slot s = some (space, pool)) :
    ∃ owned, PageTable.Backed owned (space.table, pool) :=
  h.balances.exists_backed hspace

end Session

namespace Context

variable {n : Nat} {processor : Processor n} {word : UInt64}

theorem handleRawFault_of_lt {code : UInt32} (h : 2 < code) (context : Context)
    (machines : Machines n) :
    (handleRawFault processor code word (context, machines)).result =
      .error (.refused .invalidArgument) := by
  have hcode : Access.ofCode code = .error .invalidArgument := by
    unfold Access.ofCode
    split
    · exact absurd h (by decide)
    · exact absurd h (by decide)
    · exact absurd h (by decide)
    · rfl
  rw [handleRawFault, hcode]
  rfl

theorem exhausted_iff {space : AddressSpace} {pool : FramePool} {access : Access}
    {address : VirtualAddress} {region : Region} (h : Granted space access word address region) :
    Exhausted (some (space, pool)) word ↔
      space.table.contains address.pageNumber = false ∧ pool.outstanding = pool.limit := by
  have hpage : (⟨word / Layout.pageBytes⟩ : PageNumber) = address.pageNumber := by
    rw [← h.word_eq, VirtualAddress.pageNumber]
  rw [Exhausted, hpage]
  constructor
  · rintro ⟨other, another, hsome, hexhausted⟩
    obtain ⟨rfl, rfl⟩ := Prod.mk.inj (Option.some.inj hsome)
    exact hexhausted
  · intro hexhausted
    exact ⟨space, pool, rfl, hexhausted⟩

theorem handleFault_result_of_granted {space : AddressSpace} {pool : FramePool} {access : Access}
    {address : VirtualAddress} {region : Region} (h : Granted space access word address region)
    {owned : List PhysicalAddress} (hbacked : PageTable.Backed owned (space.table, pool))
    (hsame : processor.cache = processor.interrupts) (machines : Machines n) :
    (Exhausted (some (space, pool)) word ∧
        (handleFault processor access word (some (space, pool), machines)).result =
          .error (.refused .outOfMemory)) ∨
      ¬ Exhausted (some (space, pool)) word ∧
        (handleFault processor access word (some (space, pool), machines)).result = .ok () := by
  have houtstanding : pool.outstanding = (space.table.frames ++ owned).length :=
    hbacked.handedOut.outstanding_eq
  have hle : (space.table.frames ++ owned).length ≤ pool.limit := hbacked.handedOut.length_le
  rw [exhausted_iff h, houtstanding]
  cases hmapped : space.table.contains address.pageNumber with
  | true =>
      obtain ⟨entry, hentry⟩ := Option.isSome_iff_exists.mp hmapped
      obtain ⟨events, hfault⟩ := handleFault_of_mapped machines h pool hsame hentry
      right
      rw [hfault]
      exact ⟨fun hexhausted => Bool.noConfusion hexhausted.1, rfl⟩
  | false =>
      rcases Nat.lt_or_eq_of_le hle with hroom | hfull
      · obtain ⟨frame, next, events, hfault⟩ := handleFault_of_room machines h hsame
          hbacked.wellFormed hbacked.handedOut hmapped hroom
        right
        rw [hfault]
        exact ⟨fun hexhausted => Nat.ne_of_lt hroom hexhausted.2, rfl⟩
      · obtain ⟨events, hfault⟩ := handleFault_of_full processor machines h hbacked hmapped hfull
        left
        rw [hfault]
        exact ⟨⟨rfl, hfull⟩, rfl⟩

theorem lookup_of_granted {space : AddressSpace} {pool : FramePool} {access : Access}
    {address : VirtualAddress} {region : Region} (h : Granted space access word address region)
    {owned : List PhysicalAddress} (hbacked : PageTable.Backed owned (space.table, pool))
    (hsame : processor.cache = processor.interrupts) (machines : Machines n)
    (hserved :
      (handleFault processor access word (some (space, pool), machines)).result = .ok ()) :
    ∃ mapping,
      ((handleFault processor access word (some (space, pool), machines)).state.2.get
        processor.cache).lookup address = some mapping ∧
      mapping.entry.isValid = true ∧
      (mapping.entry.isDirty = true ↔ region.permissions.writable = true ∧
        ∀ entry, space.table.find? address.pageNumber = some entry → entry.isDirty = true) := by
  have hlookup : ∀ entry, ((machines.put processor.cache ((machines.get processor.cache).place
      ⟨address.pageBase, entry⟩)).get processor.cache).lookup address =
        some ⟨address.pageBase, entry⟩ := by
    intro entry
    rw [Machines.get_put_self]
    exact Machine.lookup_place _ rfl
  cases hmapped : space.table.contains address.pageNumber with
  | true =>
      obtain ⟨entry, hentry⟩ := Option.isSome_iff_exists.mp hmapped
      obtain ⟨events, hfault⟩ := handleFault_of_mapped machines h pool hsame hentry
      rw [hfault]
      refine ⟨_, hlookup _, ?_, ?_⟩
      · rw [PageEntry.isValid_marked]
        exact hbacked.wellFormed.isValid hentry
      · rw [PageEntry.isDirty_marked, Bool.and_eq_true, and_comm, hentry]
        apply and_congr_right
        intro _
        exact ⟨fun hdirty other hother => Option.some.inj hother ▸ hdirty,
          fun hall => hall entry rfl⟩
  | false =>
      have hnone := PageTable.contains_eq_false_iff.mp hmapped
      have hle : (space.table.frames ++ owned).length ≤ pool.limit := hbacked.handedOut.length_le
      rcases Nat.lt_or_eq_of_le hle with hroom | hfull
      · obtain ⟨frame, next, events, hfault⟩ :=
          handleFault_of_room machines h hsame hbacked.wellFormed hbacked.handedOut hmapped hroom
        rw [hfault]
        refine ⟨_, hlookup _, ?_, ?_⟩
        · rw [PageEntry.isValid_marked, PageEntry.isValid_fresh]
        · rw [PageEntry.isDirty_marked, hnone]
          exact ⟨fun hwritable => ⟨hwritable, fun entry hentry => (nomatch hentry)⟩, And.left⟩
      · obtain ⟨events, hfault⟩ := handleFault_of_full processor machines h hbacked hmapped hfull
        rw [hfault] at hserved
        cases hserved

end Context

namespace Session

variable {n : Nat}

theorem handleFault_result_of_reachable {s : Session n} {held : Holdings} (h : Reachable s held)
    (slot : SlotId) {processor : Processor n} (hsame : processor.cache = processor.interrupts)
    (machines : Machines n) (access : Access) (word : UInt64) :
    (Context.Denied (space? slot s) access word ∧
        (Context.handleFault processor access word (space? slot s, machines)).result =
          .error (.refused .protectionFault)) ∨
      ¬ Context.Denied (space? slot s) access word ∧
        (Context.Exhausted (space? slot s) word ∧
            (Context.handleFault processor access word (space? slot s, machines)).result =
              .error (.refused .outOfMemory) ∨
          ¬ Context.Exhausted (space? slot s) word ∧
            (Context.handleFault processor access word (space? slot s, machines)).result =
              .ok ()) := by
  by_cases hdenied : Context.Denied (space? slot s) access word
  · obtain ⟨events, hfault⟩ := Context.handleFault_of_denied processor machines hdenied
    left
    rw [hfault]
    exact ⟨hdenied, rfl⟩
  · obtain ⟨space, pool, address, region, hspace, hgranted⟩ := Context.not_denied_iff.mp hdenied
    obtain ⟨owned, hbacked⟩ := h.backed hspace
    right
    refine ⟨hdenied, ?_⟩
    rw [hspace]
    exact Context.handleFault_result_of_granted hgranted hbacked hsame machines

/-- How a fault ends in a reachable state, in the space of a slot or without one: it is denied for
the stated reasons alone, else memory has run out, and otherwise there is a mapping. A fault with a
number is refused if the number stands for no kind of access. -/
theorem handleFault_of_reachable {s : Session n} {held : Holdings} (h : Reachable s held)
    (slot : SlotId) {processor : Processor n} (hsame : processor.cache = processor.interrupts)
    (machines : Machines n) (access : Access) (word : UInt64) :
    ((Context.handleFault processor access word (space? slot s, machines)).result =
        .error (.refused .protectionFault) ↔ Context.Denied (space? slot s) access word) ∧
      ((Context.handleFault processor access word (space? slot s, machines)).result =
          .error (.refused .outOfMemory) ↔
        ¬ Context.Denied (space? slot s) access word ∧ Context.Exhausted (space? slot s) word) ∧
      ((Context.handleFault processor access word (space? slot s, machines)).result = .ok () ↔
        ¬ Context.Denied (space? slot s) access word ∧ ¬ Context.Exhausted (space? slot s) word) ∧
      ∀ context : Context,
        (∀ code, 2 < code →
          (Context.handleRawFault processor code word (context, machines)).result =
            .error (.refused .invalidArgument)) ∧
        Context.handleRawFault processor 0 word (context, machines) =
          Context.handleFault processor .read word (context, machines) ∧
        Context.handleRawFault processor 1 word (context, machines) =
          Context.handleFault processor .write word (context, machines) ∧
        Context.handleRawFault processor 2 word (context, machines) =
          Context.handleFault processor .readOnlyViolation word (context, machines) := by
  refine ⟨?_, ?_, ?_, fun context =>
    ⟨fun code hcode => Context.handleRawFault_of_lt hcode context machines, rfl, rfl, rfl⟩⟩
  all_goals
    rcases handleFault_result_of_reachable h slot hsame machines access word with
      ⟨hdenied, hresult⟩ | ⟨hgranted, ⟨hexhausted, hresult⟩ | ⟨henough, hresult⟩⟩
  · exact iff_of_true hresult hdenied
  · exact iff_of_false (by simp [hresult]) hgranted
  · exact iff_of_false (by simp [hresult]) hgranted
  · exact iff_of_false (by simp [hresult]) fun hnot => hnot.1 hdenied
  · exact iff_of_true hresult ⟨hgranted, hexhausted⟩
  · exact iff_of_false (by simp [hresult]) fun hnot => henough hnot.2
  · exact iff_of_false (by simp [hresult]) fun hnot => hnot.1 hdenied
  · exact iff_of_false (by simp [hresult]) fun hnot => hnot.2 hexhausted
  · exact iff_of_true hresult ⟨hgranted, henough⟩

theorem handleFault_of_readBeforeLoad :
    Reachable readBeforeLoad [] ∧
      (Context.handleFault (⟨0, 0⟩ : Processor 1) .write 0x1000
        (space? 0 readBeforeLoad, readBeforeLoad.machines)).result = .ok () ∧
      ¬ Context.Denied (space? 0 readBeforeLoad) .write 0x1000 ∧
      ¬ Context.Exhausted (space? 0 readBeforeLoad) 0x1000 ∧
      (Context.handleFault (⟨0, 0⟩ : Processor 1) .write 0x2000
        (space? 0 readBeforeLoad, readBeforeLoad.machines)).result =
        .error (.refused .protectionFault) ∧
      Context.Denied (space? 0 readBeforeLoad) .write 0x2000 := by
  have hserved : (Context.handleFault (⟨0, 0⟩ : Processor 1) .write 0x1000
      (space? 0 readBeforeLoad, readBeforeLoad.machines)).result = .ok () := by
    decide +kernel
  have hdenied : (Context.handleFault (⟨0, 0⟩ : Processor 1) .write 0x2000
      (space? 0 readBeforeLoad, readBeforeLoad.machines)).result =
        .error (.refused .protectionFault) := by
    decide +kernel
  obtain ⟨-, -, hok, -⟩ := handleFault_of_reachable reachable_readBeforeLoad 0
    (rfl : (⟨0, 0⟩ : Processor 1).cache = 0) readBeforeLoad.machines .write 0x1000
  obtain ⟨hrefused, -⟩ := handleFault_of_reachable reachable_readBeforeLoad 0
    (rfl : (⟨0, 0⟩ : Processor 1).cache = 0) readBeforeLoad.machines .write 0x2000
  obtain ⟨hallowed, hroom⟩ := hok.mp hserved
  exact ⟨reachable_readBeforeLoad, hserved, hallowed, hroom, hdenied, hrefused.mp hdenied⟩

/-- A store that is served leaves a mapping of its page in the cache. The mapping is writable if the
page was not mapped before, or if its entry says that it might be written when it was mapped, and
only then. -/
theorem lookup_of_served_store {s : Session n} {held : Holdings} (h : Reachable s held)
    {slot : SlotId} {space : AddressSpace} {pool : FramePool}
    (hspace : space? slot s = some (space, pool))
    {processor : Processor n} (hsame : processor.cache = processor.interrupts)
    (machines : Machines n) {word : UInt64}
    (hserved :
      (Context.handleFault processor .write word (space? slot s, machines)).result = .ok ()) :
    ∃ address mapping, VirtualAddress.ofWord? word = some address ∧
      ((Context.handleFault processor .write word (space? slot s, machines)).state.2.get
        processor.cache).lookup address = some mapping ∧
      mapping.entry.isValid = true ∧
      (mapping.entry.isDirty = true ↔
        ∀ entry, space.table.find? address.pageNumber = some entry → entry.isDirty = true) := by
  rw [hspace] at hserved ⊢
  obtain ⟨address, region, hgranted⟩ :=
    Context.granted_of_not_denied (Context.not_denied_of_served hserved)
  obtain ⟨owned, hbacked⟩ := h.backed hspace
  have hwritable : region.permissions.writable = true := hgranted.allowed
  obtain ⟨mapping, hlookup, hvalid, hdirty⟩ :=
    Context.lookup_of_granted hgranted hbacked hsame machines hserved
  refine ⟨address, mapping, VirtualAddress.ofWord?_eq_some_iff.mpr hgranted.word_eq, hlookup,
    hvalid, ?_⟩
  rw [hdirty]
  exact and_iff_right hwritable

theorem lookup_of_served_store_of_readBeforeLoad :
    ∃ (space : AddressSpace) (pool : FramePool) (address : VirtualAddress) (mapping : Mapping),
      space? 0 readBeforeLoad = some (space, pool) ∧ VirtualAddress.ofWord? 0x1000 = some address ∧
      ((Context.handleFault (⟨0, 0⟩ : Processor 1) .write 0x1000
        (space? 0 readBeforeLoad, readBeforeLoad.machines)).state.2.get 0).lookup address =
        some mapping ∧
      mapping.entry.isValid = true ∧
      (mapping.entry.isDirty = true ↔
        ∀ entry, space.table.find? address.pageNumber = some entry → entry.isDirty = true) := by
  have hserved : (Context.handleFault (⟨0, 0⟩ : Processor 1) .write 0x1000
      (space? 0 readBeforeLoad, readBeforeLoad.machines)).result = .ok () := by
    decide +kernel
  obtain ⟨⟨space, pool⟩, hspace⟩ := Option.isSome_iff_exists.mp
    (by decide +kernel : (space? 0 readBeforeLoad).isSome = true)
  obtain ⟨address, mapping, hlookup⟩ :=
    lookup_of_served_store reachable_readBeforeLoad hspace rfl readBeforeLoad.machines hserved
  exact ⟨space, pool, address, mapping, hspace, hlookup⟩

/-- A store in a load phase is served, and yet its page is not writable in the cache: it was read
before the load phase began, when its region could not be written. -/
theorem not_writable_of_served_store :
    Reachable readBeforeLoad [] ∧
      (Context.handleFault (⟨0, 0⟩ : Processor 1) .write 0x1000
        (space? 0 readBeforeLoad, readBeforeLoad.machines)).result = .ok () ∧
      ∃ mapping, ((Context.handleFault (⟨0, 0⟩ : Processor 1) .write 0x1000
          (space? 0 readBeforeLoad, readBeforeLoad.machines)).state.2.get 0).lookup ⟨0x1000⟩ =
            some mapping ∧
        mapping.entry.isValid = true ∧ mapping.entry.isDirty = false := by
  have hflags : (((Context.handleFault (⟨0, 0⟩ : Processor 1) .write 0x1000
      (space? 0 readBeforeLoad, readBeforeLoad.machines)).state.2.get 0).lookup ⟨0x1000⟩).map
        (fun mapping => (mapping.entry.isValid, mapping.entry.isDirty)) = some (true, false) := by
    decide +kernel
  obtain ⟨mapping, hmapping, hbits⟩ := Option.map_eq_some_iff.mp hflags
  obtain ⟨hvalid, hdirty⟩ := Prod.mk.inj hbits
  exact ⟨reachable_readBeforeLoad, by decide +kernel, mapping, hmapping, hvalid, hdirty⟩

end Session

end DemandPaging
