import DemandPaging.Proofs.Cache
import DemandPaging.Proofs.Interrupts
import DemandPaging.Proofs.Runs

namespace DemandPaging

namespace Machine

inductive Call
  | mask
  | restore (level : InterruptLevel)
  | write (what : CacheWrite)

namespace Call

variable {n : Nat}

def perform (id : Fin n) : Call → Action (Machines n) Unit
  | mask => do
      let _ ← Machines.mask id
      return ()
  | restore level => Machines.restore id level
  | write what => what.perform id

/-- A mapping can only be made for an aligned page. -/
def Aligned : Call → Prop
  | .write (.insert mapping) => mapping.page.isPageAligned = true
  | _ => True

instance : DecidablePred Aligned
  | .write (.insert mapping) => inferInstanceAs (Decidable (mapping.page.isPageAligned = true))
  | .write .invalidate => inferInstanceAs (Decidable True)
  | .mask => inferInstanceAs (Decidable True)
  | .restore _ => inferInstanceAs (Decidable True)

end Call

/-- The calls made so far with their results, the last one first. -/
abbrev Journal := List (Call × Except Stop Unit)

namespace Journal

/-- The mappings that were placed since the cache was emptied, the one placed last first. -/
def placed : Journal → List Mapping
  | [] => []
  | (.write (.insert mapping), .ok _) :: earlier => mapping :: placed earlier
  | (.write .invalidate, .ok _) :: _ => []
  | _ :: earlier => placed earlier

def pages (journal : Journal) : Finset VirtualAddress :=
  (journal.placed.map Mapping.page).toFinset

def latest? (journal : Journal) (page : VirtualAddress) : Option Mapping :=
  journal.placed.find? fun mapping => mapping.page = page

end Journal

def journaling {n : Nat} (id : Fin n) (s : Machines n × Journal) (call : Call) :
    Machines n × Journal :=
  let outcome := call.perform id s.1
  (outcome.state, (call, outcome.result) :: s.2)

/-- The states of machines with the journals of one of them that lead to them. Calls that failed are
in the journal as well. -/
def Journaled {n : Nat} (id : Fin n) (machines : Machines n) (journal : Journal) : Prop :=
  Reached (fun s => s.1.get id = Machine.new ∧ s.2 = []) (fun _ => Call.Aligned)
    (journaling id) (machines, journal)

/-- The cache of a machine agrees with its journal: it has nothing but the last mappings of their
pages, as many as it can have, and the very last one. -/
structure Matches (machine : Machine) (journal : Journal) : Prop where
  tidy : machine.Tidy
  latest : ∀ mapping, some mapping ∈ machine.slots →
    journal.latest? mapping.page = some mapping
  last : ∀ mapping ∈ journal.placed.head?, some mapping ∈ machine.slots
  liveEntries_eq : machine.liveEntries = min Layout.cacheSlots journal.pages.card

namespace Matches

variable {machine : Machine} {journal : Journal} (h : machine.Matches journal)

include h

theorem of_same {after : Machine} {longer : Journal} (hslots : after.slots = machine.slots)
    (hplaced : longer.placed = journal.placed) : after.Matches longer := by
  have hlatest := h.latest
  have hlast := h.last
  have hcount := h.liveEntries_eq
  rw [← hslots] at hlatest hlast
  rw [liveEntries, ← hslots, Journal.pages, ← hplaced] at hcount
  rw [← hplaced] at hlast
  refine ⟨h.tidy.of_slots_eq hslots, fun mapping hmem => ?_, hlast, hcount⟩
  rw [Journal.latest?, hplaced]
  exact hlatest mapping hmem

theorem cachedPages_subset : machine.cachedPages ⊆ journal.pages := by
  intro page hpage
  obtain ⟨mapping, hmem, rfl⟩ := mem_cachedPages_iff.mp hpage
  rw [Journal.pages, List.mem_toFinset]
  exact List.mem_map_of_mem (List.mem_of_find?_eq_some (h.latest mapping hmem))

theorem cachedPages_eq (hfits : journal.pages.card ≤ Layout.cacheSlots) :
    machine.cachedPages = journal.pages := by
  apply Finset.eq_of_subset_of_card_le h.cachedPages_subset
  rw [card_cachedPages h.tidy, h.liveEntries_eq, Nat.min_eq_right hfits]

theorem liveEntries_place {mapping : Mapping} (haligned : mapping.page.isPageAligned = true) :
    (machine.place mapping).liveEntries =
      min Layout.cacheSlots (Insert.insert mapping.page journal.pages).card := by
  obtain ⟨slot, htakes, hslots⟩ := machine.exists_takes mapping
  have hcount := h.liveEntries_eq
  have hcard := card_cachedPages (h.tidy.place haligned)
  cases htakes with
  | own old hold hpage =>
      have hmem : mapping.page ∈ machine.cachedPages :=
        mem_cachedPages_iff.mpr ⟨old, mem_slots_iff.mpr ⟨slot, hold⟩, hpage⟩
      have hspared : ∀ other, machine.slots[slot] = some other → other.page = mapping.page := by
        intro other hother
        obtain rfl := Option.some.inj (hold.symm.trans hother)
        exact hpage
      rw [cachedPages_place hslots hspared, Finset.insert_eq_of_mem hmem,
        card_cachedPages h.tidy] at hcard
      rw [← hcard, hcount, Finset.insert_eq_of_mem (h.cachedPages_subset hmem)]
  | free hfree habsent =>
      -- A place was free, so nothing was given up so far and the page is a new one.
      have hfits : journal.pages.card < Layout.cacheSlots := by
        have hroom := liveEntries_lt_of_free hfree
        omega
      have hsame := h.cachedPages_eq hfits.le
      have hnew : mapping.page ∉ journal.pages := by
        rw [← hsame, mem_cachedPages_iff]
        rintro ⟨old, hold, hpage⟩
        exact habsent old hold hpage
      rw [cachedPages_place hslots (by simp [hfree]), hsame] at hcard
      have hgrown := Finset.card_insert_of_notMem hnew
      omega
  | victim hfull habsent =>
      have hstill : (machine.place mapping).liveEntries = Layout.cacheSlots := by
        rw [liveEntries_eq_iff, hslots]
        intro other
        rw [getElem_set_slots]
        split
        · rfl
        · exact liveEntries_eq_iff.mp hfull other
      have hgrown := Finset.card_le_card (Finset.subset_insert mapping.page journal.pages)
      omega

theorem latest_of_lookup {address : VirtualAddress} {mapping : Mapping}
    (hfound : machine.lookup address = some mapping) :
    journal.latest? address.pageBase = some mapping := by
  obtain ⟨hmem, hpage⟩ := mem_slots_of_lookup hfound
  rw [← hpage]
  exact h.latest mapping hmem

theorem lookup_eq_latest? (hfits : journal.pages.card ≤ Layout.cacheSlots)
    (address : VirtualAddress) : machine.lookup address = journal.latest? address.pageBase := by
  cases hfound : machine.lookup address with
  | some mapping => exact (h.latest_of_lookup hfound).symm
  | none =>
      have habsent := lookup_eq_none_iff.mp hfound
      symm
      rw [Journal.latest?, List.find?_eq_none]
      intro mapping hplaced hpage
      have hmem : mapping.page ∈ journal.pages :=
        List.mem_toFinset.mpr (List.mem_map_of_mem hplaced)
      rw [← h.cachedPages_eq hfits, mem_cachedPages_iff] at hmem
      obtain ⟨cached, hcached, hsame⟩ := hmem
      exact habsent cached hcached (hsame.trans (of_decide_eq_true hpage))

theorem place {mapping : Mapping} (haligned : mapping.page.isPageAligned = true) :
    (machine.place mapping).Matches ((.write (.insert mapping), .ok ()) :: journal) where
  tidy := h.tidy.place haligned
  latest old hmem := by
    obtain ⟨slot, htakes, hslots⟩ := machine.exists_takes mapping
    rw [mem_slots_iff, hslots] at hmem
    obtain ⟨other, hother⟩ := hmem
    rw [getElem_set_slots] at hother
    split at hother
    · obtain rfl := Option.some.inj hother
      exact List.find?_cons_of_pos (by simp)
    · rename_i hne
      have hpage := htakes.ne_page h.tidy hne hother
      refine (List.find?_cons_of_neg (by simpa using hpage.symm)).trans ?_
      exact h.latest old (mem_slots_iff.mpr ⟨other, hother⟩)
  last last hlast := by
    obtain rfl := Option.some.inj hlast
    exact machine.mem_slots_place_self mapping
  liveEntries_eq := (h.liveEntries_place haligned).trans
    (congrArg (fun pages : Finset VirtualAddress => min Layout.cacheSlots pages.card)
      List.toFinset_cons.symm)

omit h in
theorem of_empty (hempty : ∀ mapping, some mapping ∉ machine.slots)
    (hplaced : journal.placed = []) : machine.Matches journal where
  tidy := tidy_of_empty hempty
  latest mapping hmem := absurd hmem (hempty mapping)
  last mapping hlast := by
    rw [hplaced] at hlast
    cases hlast
  liveEntries_eq := by
    have hnone : machine.liveEntries = 0 := by
      rw [liveEntries, List.countP_eq_zero]
      intro cell hcell hsome
      obtain ⟨mapping, rfl⟩ := Option.isSome_iff_exists.mp hsome
      exact hempty mapping (Vector.mem_toList_iff.mp hcell)
    rw [hnone, Journal.pages, hplaced]
    rfl

end Matches

/-- One call keeps the cache of a machine in step with the journal. -/
theorem Matches.step {n : Nat} {id : Fin n} {machines : Machines n} {journal : Journal}
    (h : (machines.get id).Matches journal) (call : Call) (haligned : call.Aligned) :
    ((call.perform id machines).state.get id).Matches
      ((call, (call.perform id machines).result) :: journal) := by
  cases call with
  | mask => exact h.of_same (machines.slots_atLevel_self id .masked) rfl
  | restore level => exact h.of_same (machines.slots_atLevel_self id level) rfl
  | write what =>
      rw [Call.perform]
      cases hlevel : (machines.get id).level with
      | enabled =>
          rw [what.perform_of_enabled hlevel]
          cases what <;> exact h.of_same rfl rfl
      | masked =>
          cases what with
          | insert mapping =>
              rw [CacheWrite.perform, Machines.insert_of_masked hlevel, Machines.get_put_self]
              exact h.place haligned
          | invalidate =>
              rw [CacheWrite.perform, Machines.invalidate_of_masked hlevel, Machines.get_put_self]
              exact .of_empty (not_mem_slots_emptied _) rfl

theorem Journaled.agrees {n : Nat} {id : Fin n} {machines : Machines n} {journal : Journal}
    (h : Journaled id machines journal) : (machines.get id).Matches journal := by
  refine Reached.keeps h (P := fun s => (s.1.get id).Matches s.2) ?_ ?_
  · rintro ⟨machines, journal⟩ ⟨hnew, rfl⟩
    refine .of_empty (fun mapping hmem => ?_) rfl
    rw [hnew, mem_slots_iff] at hmem
    obtain ⟨slot, hslot⟩ := hmem
    simp [Machine.new] at hslot
  · intro s call _ haligned ih
    exact ih.step call haligned

/-- What the cache of a machine holds, told by its journal. -/
structure HoldsLatest {n : Nat} (id : Fin n) (machines : Machines n) (journal : Journal) :
    Prop where
  tidy : (machines.get id).Tidy
  liveEntries_eq : (machines.get id).liveEntries = min Layout.cacheSlots journal.pages.card
  latest : ∀ address mapping, (machines.get id).lookup address = some mapping →
    journal.latest? address.pageBase = some mapping
  last : ∀ mapping ∈ journal.placed.head?, ∀ address : VirtualAddress,
    address.pageBase = mapping.page → (machines.get id).lookup address = some mapping
  /-- Until the pages are more than the places, the last mapping of each of them is found. -/
  complete : journal.pages.card ≤ Layout.cacheSlots → ∀ address : VirtualAddress,
    (machines.get id).lookup address = journal.latest? address.pageBase
  written : (machines.get id).level = .masked → ∀ what : CacheWrite,
    (what.perform id machines).result = .ok ()
  /-- An insertion costs no other page its mapping, unless the cache is full of other pages, and
  then it costs one of them its mapping. -/
  makesWay : (machines.get id).level = .masked → ∀ mapping : Mapping,
    mapping.page.isPageAligned = true → (machines.get id).MakesWay
      (((CacheWrite.insert mapping).perform id machines).state.get id) mapping.page
  refused : (machines.get id).level = .enabled → ∀ what : CacheWrite,
    (what.perform id machines).result = .error (.violated .interruptsEnabled) ∧
      (what.perform id machines).state = machines

/-- The cache of a machine holds what was placed last, in every state that calls can lead to, also
if some of the writes were tried while interrupts were enabled. -/
theorem holdsLatest_of_journaled {n : Nat} {id : Fin n} {machines : Machines n} {journal : Journal}
    (h : Journaled id machines journal) : HoldsLatest id machines journal where
  tidy := h.agrees.tidy
  liveEntries_eq := h.agrees.liveEntries_eq
  latest _ _ hfound := h.agrees.latest_of_lookup hfound
  last mapping hlast address hpage :=
    h.agrees.tidy.lookup_eq_some_iff.mpr ⟨h.agrees.last mapping hlast, hpage.symm⟩
  complete := h.agrees.lookup_eq_latest?
  written hlevel what := by
    cases what with
    | insert mapping => rw [CacheWrite.perform, Machines.insert_of_masked hlevel]
    | invalidate => rw [CacheWrite.perform, Machines.invalidate_of_masked hlevel]
  makesWay hlevel mapping haligned := by
    rw [CacheWrite.perform, Machines.insert_of_masked hlevel, Machines.get_put_self]
    exact h.agrees.tidy.makesWay_place (VirtualAddress.pageBase_of_isPageAligned haligned).symm
  refused hlevel what := by
    rw [what.perform_of_enabled hlevel]
    exact ⟨rfl, rfl⟩

/-- The valid mapping of a page to a frame, each given by its number. -/
def numbered (page frame : Nat) : Mapping :=
  ⟨⟨UInt32.ofNat (page * Layout.pageSize)⟩,
    ⟨UInt64.ofNat (frame * Layout.pageSize) ||| EntryFlags.validBit⟩⟩

/-- The cache is emptied once, then two pages are placed and the first of them again. In the end it
cannot be emptied. -/
def placingAgain : List Call :=
  [.mask, .write (.insert (numbered 7 1)), .write .invalidate, .write (.insert (numbered 1 2)),
    .write (.insert (numbered 2 3)), .write (.insert (numbered 1 4)), .restore .enabled,
    .write .invalidate]

theorem holdsLatest_of_placingAgain :
    ∃ after : Machines 1 × Journal,
      placingAgain.foldl (journaling 0) (#v[Machine.new], []) = after ∧
      after.2.pages.card = 2 ∧
      after.2.latest? (numbered 1 4).page = some (numbered 1 4) ∧
      (after.1.get 0).level = .enabled ∧ HoldsLatest 0 after.1 after.2 :=
  ⟨_, rfl, by decide +kernel, by decide +kernel, by decide +kernel,
    holdsLatest_of_journaled
      (Reached.run (.start ⟨rfl, rfl⟩) (.of_forall fun _ => by decide +kernel))⟩

end Machine

end DemandPaging
