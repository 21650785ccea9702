import Mathlib.Data.List.Basic
import Mathlib.Data.List.Induction
import DemandPaging.Proofs.Entry

namespace DemandPaging

namespace EntryFlags

inductive Update
  | valid (on : Bool)
  | dirty (on : Bool)
  deriving DecidableEq, Repr

namespace Update

def apply (flags : EntryFlags) : Update → EntryFlags
  | valid on => flags.withValid on
  | dirty on => flags.withDirty on

def valid? : Update → Option Bool
  | valid on => some on
  | dirty _ => none

def dirty? : Update → Option Bool
  | valid _ => none
  | dirty on => some on

theorem isValid_apply (flags : EntryFlags) (update : Update) :
    (update.apply flags).isValid = update.valid?.getD flags.isValid := by
  cases update with
  | valid on => exact isValid_withValid flags on
  | dirty on => exact isValid_withDirty flags on

theorem isDirty_apply (flags : EntryFlags) (update : Update) :
    (update.apply flags).isDirty = update.dirty?.getD flags.isDirty := by
  cases update with
  | valid on => exact isDirty_withValid flags on
  | dirty on => exact isDirty_withDirty flags on

end Update

/-- What flags have become by a list of updates: each is as it was set last, or as it was before if
it was not set at all, and there are no other bits. -/
structure Updated (before : EntryFlags) (updates : List Update) (after : EntryFlags) : Prop where
  isValid_eq : after.isValid = (updates.filterMap Update.valid?).getLast?.getD before.isValid
  isDirty_eq : after.isDirty = (updates.filterMap Update.dirty?).getLast?.getD before.isDirty
  others : ∀ bit, bit ≠ 9 → bit ≠ 10 → after.raw.toNat.testBit bit = false

theorem OnlyFlags.getLsbD_eq_false {flags : EntryFlags} (h : flags.OnlyFlags) {bit : Nat}
    (hvalid : bit ≠ 9) (hdirty : bit ≠ 10) : flags.raw.toBitVec.getLsbD bit = false := by
  have hmask : (validBit ||| dirtyBit).toBitVec = BitVec.twoPow 64 9 ||| BitVec.twoPow 64 10 := by
    decide
  rw [← h, UInt64.toBitVec_and, hmask, BitVec.getLsbD_and, BitVec.getLsbD_or,
    BitVec.getLsbD_twoPow, BitVec.getLsbD_twoPow]
  simp [hvalid.symm, hdirty.symm]

theorem OnlyFlags.eq_of_isValid_eq {flags other : EntryFlags} (h : flags.OnlyFlags)
    (hother : other.OnlyFlags) (hvalid : flags.isValid = other.isValid)
    (hdirty : flags.isDirty = other.isDirty) : flags = other := by
  rw [isValid_eq_getLsbD, isValid_eq_getLsbD] at hvalid
  rw [isDirty_eq_getLsbD, isDirty_eq_getLsbD] at hdirty
  have hraw : flags.raw.toBitVec = other.raw.toBitVec := by
    apply BitVec.eq_of_getLsbD_eq
    intro bit _
    by_cases hnine : bit = 9
    · rw [hnine, hvalid]
    · by_cases hten : bit = 10
      · rw [hten, hdirty]
      · rw [h.getLsbD_eq_false hnine hten, hother.getLsbD_eq_false hnine hten]
  exact congrArg mk (UInt64.toBitVec_inj.mp hraw)

theorem OnlyFlags.apply {flags : EntryFlags} (h : flags.OnlyFlags) (update : Update) :
    (update.apply flags).OnlyFlags := by
  cases update with
  | valid on => exact h.withValid on
  | dirty on => exact h.withDirty on

theorem OnlyFlags.foldl {flags : EntryFlags} (h : flags.OnlyFlags) (updates : List Update) :
    (updates.foldl Update.apply flags).OnlyFlags := by
  induction updates generalizing flags with
  | nil => exact h
  | cons update updates ih => exact ih (h.apply update)

theorem read_foldl {read : EntryFlags → Bool} {set? : Update → Option Bool}
    (hread : ∀ flags update, read (Update.apply flags update) = (set? update).getD (read flags))
    (flags : EntryFlags) (updates : List Update) :
    read (updates.foldl Update.apply flags) =
      (updates.filterMap set?).getLast?.getD (read flags) := by
  induction updates using List.reverseRecOn with
  | nil => rfl
  | append_singleton updates update ih =>
      rw [List.foldl_concat, hread, ih, List.filterMap_append]
      cases hset : set? update <;> simp [hset]

theorem OnlyFlags.updated {flags : EntryFlags} (h : flags.OnlyFlags) (updates : List Update) :
    Updated flags updates (updates.foldl Update.apply flags) where
  isValid_eq := read_foldl Update.isValid_apply flags updates
  isDirty_eq := read_foldl Update.isDirty_apply flags updates
  others _ hvalid hdirty := (h.foldl updates).getLsbD_eq_false hvalid hdirty

end EntryFlags

namespace PageEntry

theorem new_of_not_isPageAligned {frame : PhysicalAddress} (h : frame.isPageAligned = false)
    (flags : EntryFlags) : new frame flags = .error .unalignedFrame := by
  rw [new, h]
  rfl

/-- An entry that has no other bits than those of its frame and its flags. -/
def Plain (entry : PageEntry) : Prop :=
  new entry.frame entry.flags = .ok entry

variable {entry other : PageEntry} {frame : PhysicalAddress} {flags : EntryFlags}

theorem plain_of_new (hflags : flags.OnlyFlags) (h : new frame flags = .ok entry) :
    entry.Plain ∧ entry.frame = frame ∧ entry.flags = flags := by
  cases haligned : frame.isPageAligned with
  | false =>
      rw [new_of_not_isPageAligned haligned] at h
      cases h
  | true =>
      have hframe : entry.frame = frame := by
        rw [eq_pack_of_new h, frame_pack haligned hflags]
      have hkept : entry.flags = flags := by
        rw [eq_pack_of_new h, flags_pack frame hflags]
      refine ⟨?_, hframe, hkept⟩
      rw [Plain, hframe, hkept, h]

theorem Plain.eq_pack (h : entry.Plain) : entry = pack entry.frame entry.flags :=
  eq_pack_of_new h

theorem Plain.raw_eq_iff (h : entry.Plain) (hother : other.Plain) :
    entry.raw = other.raw ↔ entry.frame = other.frame ∧ entry.isValid = other.isValid ∧
      entry.isDirty = other.isDirty := by
  constructor
  · intro hraw
    obtain rfl : entry = other := congrArg mk hraw
    exact ⟨rfl, rfl, rfl⟩
  · rintro ⟨hframe, hvalid, hdirty⟩
    have hflags : entry.flags = other.flags :=
      entry.onlyFlags_flags.eq_of_isValid_eq other.onlyFlags_flags hvalid hdirty
    rw [h.eq_pack, hother.eq_pack, hframe, hflags]

theorem Plain.marked (entry : PageEntry) (dirty : Bool) : (entry.marked dirty).Plain :=
  (plain_of_new (entry.onlyFlags_flags.withDirty dirty) (entry.withDirty_eq dirty)).1

theorem foldlM_withDirty (entry : PageEntry) (requests : List Bool) :
    requests.foldlM withDirty entry = .ok (requests.foldl PageEntry.marked entry) := by
  induction requests generalizing entry with
  | nil => rfl
  | cons dirty requests ih =>
      rw [List.foldlM_cons, withDirty_eq]
      exact ih (entry.marked dirty)

/-- What an entry has become when its dirty flag was set as requested, one request after the other:
the entry of the same frame with the same valid flag, dirty as it was requested last. -/
structure Redirtied (before : PageEntry) (requests : List Bool) (after : PageEntry) : Prop where
  plain : after.Plain
  frame_eq : after.frame = before.frame
  isValid_eq : after.isValid = before.isValid
  isDirty_eq : after.isDirty = requests.getLast?.getD before.isDirty

theorem Plain.redirtied (h : entry.Plain) (requests : List Bool) :
    Redirtied entry requests (requests.foldl PageEntry.marked entry) := by
  induction requests using List.reverseRecOn with
  | nil => exact ⟨h, rfl, rfl, rfl⟩
  | append_singleton requests dirty ih =>
      rw [List.foldl_concat]
      exact {
        plain := .marked _ dirty
        frame_eq := (frame_marked _ dirty).trans ih.frame_eq
        isValid_eq := (isValid_marked _ dirty).trans ih.isValid_eq
        isDirty_eq := by rw [isDirty_marked, List.getLast?_concat, Option.getD_some] }

/-- What it means that an entry is made of a frame and flags: both come out of it unchanged, they
tell it from all other entries, and its dirty flag can be changed alone. -/
structure Holds (entry : PageEntry) (frame : PhysicalAddress) (flags : EntryFlags) : Prop where
  frame_eq : entry.frame = frame
  flags_eq : entry.flags = flags
  raw_eq_iff : ∀ other word another, new other (.ofRaw word) = .ok another →
    (entry.raw = another.raw ↔ entry.frame = another.frame ∧ entry.isValid = another.isValid ∧
      entry.isDirty = another.isDirty)
  redirtied : ∀ requests : List Bool, ∃ last, requests.foldlM withDirty entry = .ok last ∧
    Redirtied entry requests last

theorem holds_of_new (hflags : flags.OnlyFlags) (h : new frame flags = .ok entry) :
    entry.Holds frame flags := by
  obtain ⟨hplain, hframe, hkept⟩ := plain_of_new hflags h
  exact {
    frame_eq := hframe
    flags_eq := hkept
    raw_eq_iff := by
      intro other word another hanother
      exact hplain.raw_eq_iff (plain_of_new (EntryFlags.onlyFlags_ofRaw word) hanother).1
    redirtied := fun requests => ⟨_, entry.foldlM_withDirty requests, hplain.redirtied requests⟩ }

end PageEntry

/-- What is packed into an entry comes out of it. A frame is refused exactly if it is not aligned,
otherwise the entry holds it together with the flags of the word, and whatever is done to flags they
are as they were set last. -/
theorem packs_exactly (frame : PhysicalAddress) (word : UInt64) :
    (frame.word.toNat % Layout.pageSize ≠ 0 ∧
        PageEntry.new frame (.ofRaw word) = .error .unalignedFrame ∨
      frame.word.toNat % Layout.pageSize = 0 ∧
        ∃ entry, PageEntry.new frame (.ofRaw word) = .ok entry ∧ entry.Holds frame (.ofRaw word)) ∧
      ∀ updates : List EntryFlags.Update, EntryFlags.Updated (.ofRaw word) updates
        (updates.foldl EntryFlags.Update.apply (.ofRaw word)) := by
  have hflags := EntryFlags.onlyFlags_ofRaw word
  refine ⟨?_, hflags.updated⟩
  rw [ne_eq, ← PhysicalAddress.isPageAligned_iff]
  cases haligned : frame.isPageAligned with
  | false => exact .inl ⟨by decide, PageEntry.new_of_not_isPageAligned haligned _⟩
  | true =>
      have hnew := PageEntry.new_of_isPageAligned haligned (.ofRaw word)
      exact .inr ⟨rfl, _, hnew, PageEntry.holds_of_new hflags hnew⟩

end DemandPaging
