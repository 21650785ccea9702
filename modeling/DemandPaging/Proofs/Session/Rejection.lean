import DemandPaging.Proofs.Session.Faults

namespace DemandPaging

namespace AddressSpace

/-- A space is as before, but for a block without pages that its table may have more. -/
structure GainsBlock (space next : AddressSpace) : Prop where
  table : next.table = space.table ∨
    ∃ first, space.table.position? first = none ∧ next.table = space.table.addBlock first
  regions : next.regions = space.regions
  loading : next.loading = space.loading
  stackBase : next.stackBase = space.stackBase
  physical : ∀ address, next.physical? address = space.physical? address
  mappedPages : next.table.mappedPages = space.table.mappedPages
  mappedCount : next.table.mappedCount = space.table.mappedCount

theorem gainsBlock_withBlock {space : AddressSpace} (h : space.table.WellFormed)
    (first : FirstIndex) :
    space.GainsBlock { space with table := space.table.withBlock first } where
  table := (space.table.withBlock_cases first).imp_right fun hadded => ⟨first, hadded⟩
  regions := rfl
  loading := rfl
  stackBase := rfl
  physical := by
    intro address
    rw [physical?, PageTable.find?_withBlock h, physical?]
  mappedPages := PageTable.mappedPages_withBlock h first
  mappedCount := PageTable.mappedCount_withBlock space.table first

end AddressSpace

namespace Context

/-- What it means that a fault which was refused has changed nothing. Only if memory has run out the
space may have one more block, and then the fault is served once frames were given back, by
whomever, in whatever state the machines are by then. -/
structure Rejected {n : Nat} (processor : Processor n)
    (fault : Action (Context × Machines n) Unit) (context : Context) (machines : Machines n)
    (reason : Refusal) : Prop where
  sameMachines : (fault (context, machines)).state.2 = machines
  sameContext : reason ≠ .outOfMemory → (fault (context, machines)).state.1 = context
  gainsBlock : reason = .outOfMemory → ∃ space pool next, context = some (space, pool) ∧
    (fault (context, machines)).state.1 = some (next, pool) ∧ space.GainsBlock next ∧
    (processor.cache = processor.interrupts →
      ∀ id frames, frames ≠ [] → (FramePool.releaseFrames id frames pool).result = .ok () →
        ∀ others, (fault (some (next, (FramePool.releaseFrames id frames pool).state),
          others)).result = .ok ())

section Rejected

variable {n : Nat} {processor : Processor n} {access : Access} {word : UInt64} {context : Context}
  {machines : Machines n} {reason : Refusal}

theorem rejected_of_same {fault : Action (Context × Machines n) Unit}
    (hreason : reason ≠ .outOfMemory)
    (hstate : (fault (context, machines)).state = (context, machines)) :
    Rejected processor fault context machines reason where
  sameMachines := congrArg Prod.snd hstate
  sameContext _ := congrArg Prod.fst hstate
  gainsBlock heq := absurd heq hreason

theorem rejected_of_denied (h : Denied context access word)
    (hresult : (handleFault processor access word (context, machines)).result =
      .error (.refused reason)) :
    Rejected processor (handleFault processor access word) context machines reason := by
  obtain ⟨events, hfault⟩ := handleFault_of_denied processor machines h
  rw [hfault] at hresult
  cases hresult
  exact rejected_of_same (by simp) (by rw [hfault])

variable {space : AddressSpace} {pool : FramePool} {address : VirtualAddress} {region : Region}
  {owned : List PhysicalAddress} (h : Granted space access word address region)

include h

theorem serve_of_refused (hbacked : PageTable.Backed owned (space.table, pool))
    (hresult : (handleFault processor access word (some (space, pool), machines)).result =
      .error (.refused reason)) :
    reason = .outOfMemory ∧ space.table.contains address.pageNumber = false ∧
      (space.table.frames ++ owned).length = pool.limit := by
  have hserved : ∀ {mapping next events},
      AddressSpace.resolve access address.pageNumber (space, pool) = ⟨.ok mapping, next, events⟩ →
        False := by
    intro mapping next events hresolve
    have hfirst : Action.first (AddressSpace.resolve access address.pageNumber)
        ((space, pool), machines) = ⟨.ok mapping, (next, machines), events⟩ := by
      rw [Action.run_first, hresolve]
    rw [handleFault_of_granted processor machines h, serve, Action.bind_of_ok hfirst] at hresult
    exact processor.result_install_ne_refused mapping machines reason hresult
  cases hmapped : space.table.contains address.pageNumber with
  | true =>
      obtain ⟨entry, hentry⟩ := Option.isSome_iff_exists.mp hmapped
      exact (hserved (AddressSpace.resolve_of_mapped h.deciding h.allowed hentry)).elim
  | false =>
      rcases Nat.lt_or_eq_of_le hbacked.handedOut.length_le with hroom | hfull
      · obtain ⟨frame, next, events, hresolve, -⟩ := AddressSpace.resolve_of_room h.deciding
          h.allowed hbacked.wellFormed hbacked.handedOut hmapped hroom
        exact (hserved hresolve).elim
      · obtain ⟨events, hfault⟩ := handleFault_of_full processor machines h hbacked hmapped hfull
        rw [hfault] at hresult
        cases hresult
        exact ⟨rfl, rfl, hfull⟩

theorem served_after_release (hsame : processor.cache = processor.interrupts)
    (htable : space.table.WellFormed) (howned : pool.HandedOut owned)
    (hunmapped : space.table.contains address.pageNumber = false) {id : PoolId}
    {frames : List PhysicalAddress} (hframes : frames ≠ [])
    (hreleased : (FramePool.releaseFrames id frames pool).result = .ok ()) :
    (handleFault processor access word
      (some (space, (FramePool.releaseFrames id frames pool).state), machines)).result =
        .ok () := by
  obtain ⟨rest, hrest, hlimit, hlength⟩ := howned.releaseFrames id hreleased
  have hroom : rest.length < (FramePool.releaseFrames id frames pool).state.limit := by
    have := howned.length_le
    have := List.length_pos_of_ne_nil hframes
    omega
  obtain ⟨frame, next, events, hfault⟩ :=
    handleFault_of_room machines h hsame htable hrest hunmapped hroom
  rw [hfault]

theorem rejected_of_granted (hbacked : PageTable.Backed owned (space.table, pool))
    (hresult : (handleFault processor access word (some (space, pool), machines)).result =
      .error (.refused reason)) :
    Rejected processor (handleFault processor access word) (some (space, pool)) machines
      reason := by
  obtain ⟨rfl, hunmapped, hfull⟩ := serve_of_refused h hbacked hresult
  obtain ⟨events, hfault⟩ := handleFault_of_full processor machines h hbacked hunmapped hfull
  have hwellFormed : space.table.WellFormed := hbacked.wellFormed
  constructor
  case sameMachines => rw [hfault]
  case sameContext => exact fun hreason => absurd rfl hreason
  case gainsBlock =>
    refine fun _ => ⟨space, pool, _, rfl, by rw [hfault],
      AddressSpace.gainsBlock_withBlock hwellFormed address.pageNumber.firstIndex, ?_⟩
    intro hsame id frames hframes hreleased others
    have hnext : Granted { space with
        table := space.table.withBlock address.pageNumber.firstIndex } access word address region :=
      ⟨h.word_eq, h.word_ne, h.access_ne, h.deciding, h.allowed⟩
    have hunmapped := (PageTable.contains_withBlock hwellFormed address.pageNumber
      address.pageNumber.firstIndex).trans hunmapped
    exact served_after_release hnext hsame (PageTable.wellFormed_withBlock hwellFormed _)
      hbacked.handedOut hunmapped hframes hreleased

end Rejected

end Context

namespace Session

variable {n : Nat}

theorem rejected_handleFault {s : Session n} {held : Holdings} (h : Reachable s held)
    (slot : SlotId) (processor : Processor n) (machines : Machines n) (access : Access)
    (word : UInt64) {reason : Refusal}
    (hresult : (Context.handleFault processor access word (space? slot s, machines)).result =
      .error (.refused reason)) :
    Context.Rejected processor (Context.handleFault processor access word) (space? slot s) machines
      reason := by
  by_cases hdenied : Context.Denied (space? slot s) access word
  · exact Context.rejected_of_denied hdenied hresult
  · obtain ⟨space, pool, address, region, hspace, hgranted⟩ := Context.not_denied_iff.mp hdenied
    obtain ⟨owned, hbacked⟩ := h.backed hspace
    rw [hspace] at hresult ⊢
    exact Context.rejected_of_granted hgranted hbacked hresult

/-- A fault of any kind that is refused in a reachable state, in the space of a slot or without one,
changes nothing. If memory has run out, one block without entries may have been made, and the same
fault is served after frames were given back. The kind may be given by its number. -/
theorem rejected_of_reachable {s : Session n} {held : Holdings} (h : Reachable s held)
    (slot : SlotId) (processor : Processor n) (machines : Machines n) (word : UInt64) :
    (∀ access reason,
      (Context.handleFault processor access word (space? slot s, machines)).result =
          .error (.refused reason) →
        Context.Rejected processor (Context.handleFault processor access word) (space? slot s)
          machines reason) ∧
      ∀ code reason,
        (Context.handleRawFault processor code word (space? slot s, machines)).result =
            .error (.refused reason) →
          Context.Rejected processor (Context.handleRawFault processor code word) (space? slot s)
            machines reason := by
  refine ⟨fun access reason => rejected_handleFault h slot processor machines access word, ?_⟩
  intro code reason hresult
  cases hcode : Access.ofCode code with
  | ok access =>
      have hfault : Context.handleRawFault processor code word =
          Context.handleFault processor access word := by
        rw [Context.handleRawFault, hcode]
      rw [hfault] at hresult ⊢
      exact rejected_handleFault h slot processor machines access word hresult
  | error other =>
      have hother : other = .invalidArgument := by
        unfold Access.ofCode at hcode
        split at hcode <;> cases hcode
        rfl
      subst hother
      have hfault : Context.handleRawFault processor code word (space? slot s, machines) =
          ⟨.error (.refused .invalidArgument), (space? slot s, machines),
            [.logged (.faulted (.unknownCode word code))]⟩ := by
        rw [Context.handleRawFault, hcode]
        rfl
      rw [hfault] at hresult
      cases hresult
      exact Context.rejected_of_same (by simp) (by rw [hfault])

/-- A session with a space of one page, whose only frame is held by the caller. -/
def withoutFrames : Session 1 :=
  (run (ofLimits #[1] #[.sole])
    [.space 0 (.new 0), .space 0 (.define 0x1000 0x1000 .readWrite), .pool 0 .allocate]).2

theorem reachable_withoutFrames : ∃ held, Reachable withoutFrames held :=
  ⟨_, (reachable_ofLimits #[1] #[.sole]).run
    (⟨trivial, trivial, trivial, trivial⟩ : HonestRun (ofLimits #[1] #[.sole]) []
      [.space 0 (.new 0), .space 0 (.define 0x1000 0x1000 .readWrite), .pool 0 .allocate])⟩

theorem rejected_of_withoutFrames :
    ∃ held, Reachable withoutFrames held ∧
      (Context.handleFault (⟨0, 0⟩ : Processor 1) .write 0x1000
          (space? 0 withoutFrames, withoutFrames.machines)).result =
        .error (.refused .outOfMemory) ∧
      Context.Rejected (⟨0, 0⟩ : Processor 1) (Context.handleFault ⟨0, 0⟩ .write 0x1000)
        (space? 0 withoutFrames) withoutFrames.machines .outOfMemory := by
  obtain ⟨held, hreachable⟩ := reachable_withoutFrames
  have hrefused : (Context.handleFault (⟨0, 0⟩ : Processor 1) .write 0x1000
      (space? 0 withoutFrames, withoutFrames.machines)).result =
        .error (.refused .outOfMemory) := by
    decide +kernel
  exact ⟨held, hreachable, hrefused,
    (rejected_of_reachable hreachable 0 ⟨0, 0⟩ withoutFrames.machines 0x1000).1 .write .outOfMemory
      hrefused⟩

end Session

end DemandPaging
