import DemandPaging.Proofs.Session.Chronicle
import DemandPaging.Proofs.Session.Coherence
import DemandPaging.Proofs.Translation

namespace DemandPaging

namespace History

def firstTouch? (history : History) (page : PageNumber) : Option Touch :=
  history.touches.find? fun touch => touch.page = page

def populated (history : History) : Finset PageNumber :=
  (history.touches.map Touch.page).toFinset.filter fun page => history.origin.contains page = false

theorem mem_populated {history : History} {page : PageNumber} :
    page ∈ history.populated ↔
      (∃ touch ∈ history.touches, touch.page = page) ∧ history.origin.contains page = false := by
  simp [populated]

theorem exists_touch_touched {history : History} {touch : Touch} {page : PageNumber} :
    (∃ some ∈ (history.touched touch).touches, some.page = page) ↔
      (∃ some ∈ history.touches, some.page = page) ∨ touch.page = page := by
  simp [touched, or_and_right, exists_or]

theorem firstTouch?_touched (history : History) (touch : Touch) (page : PageNumber) :
    (history.touched touch).firstTouch? page =
      (history.firstTouch? page).or (if touch.page = page then some touch else none) := by
  rw [firstTouch?, touched, List.find?_append, firstTouch?]
  by_cases hpage : touch.page = page <;> simp [hpage]

theorem firstTouch?_eq_none_iff {history : History} {page : PageNumber} :
    history.firstTouch? page = none ↔ ¬ ∃ touch ∈ history.touches, touch.page = page := by
  simp [firstTouch?]

end History

namespace AddressSpace

/-- The table of a space is as its history says. -/
structure Populated (space : AddressSpace) (history : History) : Prop where
  contains : ∀ address : VirtualAddress, space.table.contains address.pageNumber = true ↔
    history.origin.contains address.pageNumber = true ∨
      ∃ touch ∈ history.touches, touch.page = address.pageNumber
  inherited : ∀ (address : VirtualAddress) (old : PageEntry),
    history.origin.find? address.pageNumber = some old →
    ∃ entry, space.table.find? address.pageNumber = some entry ∧ entry.isDirty = old.isDirty
  isDirty : ∀ (address : VirtualAddress) (entry : PageEntry),
    space.table.find? address.pageNumber = some entry →
    history.origin.contains address.pageNumber = false →
    ∃ touch, history.firstTouch? address.pageNumber = some touch ∧ entry.isDirty = touch.writable
  allocated : history.allocated = history.populated.card

variable {space : AddressSpace} {history : History}

theorem populated_of_same {other : AddressSpace} {later : History} (h : space.Populated history)
    (hfind : ∀ page, other.table.find? page = space.table.find? page)
    (horigin : later.origin = history.origin) (htouches : later.touches = history.touches)
    (hallocated : later.allocated = history.allocated) : other.Populated later where
  contains address := by
    rw [PageTable.contains, hfind, horigin, htouches]
    exact h.contains address
  inherited address old hold := by
    rw [hfind]
    exact h.inherited address old (horigin ▸ hold)
  isDirty address entry hentry hunmapped := by
    rw [History.firstTouch?, htouches]
    exact h.isDirty address entry (hfind _ ▸ hentry) (horigin ▸ hunmapped)
  allocated := by
    rw [History.populated, htouches, horigin, hallocated]
    exact h.allocated

theorem populated_blank (pool : PoolId) : (blank pool).Populated (.fresh pool) where
  contains address := by
    have hnone : (PageTable.empty pool).contains address.pageNumber = false :=
      PageTable.contains_eq_false_iff.mpr (PageTable.find?_empty pool _)
    simp [blank, History.fresh, hnone]
  inherited address old hold := by
    rw [History.fresh, PageTable.find?_empty] at hold
    contradiction
  isDirty address entry hentry _ := by
    rw [blank, PageTable.find?_empty] at hentry
    contradiction
  allocated := rfl

theorem populated_fork {copy : AddressSpace} {pool next : FramePool}
    (hfork : space.IsFork copy pool next) (history : History) :
    copy.Populated (history.forked space.table) where
  contains address := by
    rw [hfork.contains]
    simp [History.forked]
  inherited address old hold := by
    obtain ⟨copied, hcopied, -, hdirty, -⟩ := hfork.entries _ old hold
    exact ⟨copied, hcopied, hdirty⟩
  isDirty address entry hentry hunmapped := by
    have hmapped : copy.table.contains address.pageNumber = true :=
      Option.isSome_iff_exists.mpr ⟨entry, hentry⟩
    rw [hfork.contains] at hmapped
    rw [History.forked] at hunmapped
    rw [hunmapped] at hmapped
    contradiction
  allocated := rfl

section Touched

variable {address : VirtualAddress}

theorem populated_again (h : space.Populated history)
    (hmapped : space.table.contains address.pageNumber = true) (writable : Bool) :
    space.Populated (history.touched ⟨address.pageNumber, writable⟩) where
  contains other := by
    rw [History.exists_touch_touched, ← or_assoc, h.contains other]
    refine ⟨.inl, ?_⟩
    rintro (hbefore | hpage)
    · exact hbefore
    · exact (h.contains other).mp (hpage ▸ hmapped)
  inherited := h.inherited
  isDirty other entry hentry hunmapped := by
    obtain ⟨touch, htouch, hdirty⟩ := h.isDirty other entry hentry hunmapped
    refine ⟨touch, ?_, hdirty⟩
    rw [History.firstTouch?_touched, htouch, Option.some_or]
  allocated := by
    have hsame :
        (history.touched ⟨address.pageNumber, writable⟩).populated = history.populated := by
      ext page
      rw [History.mem_populated, History.mem_populated, History.exists_touch_touched]
      refine and_congr_left fun hunmapped => or_iff_left_of_imp ?_
      rintro rfl
      exact ((h.contains address).mp hmapped).resolve_left ((Bool.not_eq_true _).mpr hunmapped)
    rw [hsame]
    exact h.allocated

theorem find?_mapping_pageNumber (htable : space.table.WellFormed) (entry : PageEntry)
    (other : VirtualAddress) :
    (space.table.mapping address.pageNumber entry).find? other.pageNumber =
      if other.pageNumber = address.pageNumber then some entry
      else space.table.find? other.pageNumber := by
  rw [PageTable.find?_mapping htable]
  refine if_congr ⟨fun hplace => ?_, congrArg PageNumber.place⟩ rfl rfl
  exact PageNumber.place_injective other.toNat_pageNumber_lt address.toNat_pageNumber_lt hplace

theorem contains_mapping_pageNumber (htable : space.table.WellFormed) (entry : PageEntry)
    (other : VirtualAddress) :
    (space.table.mapping address.pageNumber entry).contains other.pageNumber = true ↔
      space.table.contains other.pageNumber = true ∨ address.pageNumber = other.pageNumber := by
  rw [PageTable.contains, find?_mapping_pageNumber htable]
  split
  · rename_i hpage
    simp [hpage]
  · rename_i hpage
    exact (or_iff_left (Ne.symm hpage)).symm

section First

variable (h : space.Populated history)
  (hunmapped : space.table.contains address.pageNumber = false)

include h hunmapped

theorem Populated.not_contains_origin :
    history.origin.contains address.pageNumber = false := by
  rw [← Bool.not_eq_true]
  intro horigin
  rw [(h.contains address).mpr (.inl horigin)] at hunmapped
  contradiction

theorem Populated.not_exists_touch :
    ¬ ∃ touch ∈ history.touches, touch.page = address.pageNumber := by
  intro htouch
  rw [(h.contains address).mpr (.inr htouch)] at hunmapped
  contradiction

theorem Populated.inherited_mapping (htable : space.table.WellFormed) (entry : PageEntry)
    {other : VirtualAddress} {old : PageEntry}
    (hold : history.origin.find? other.pageNumber = some old) :
    ∃ found, (space.table.mapping address.pageNumber entry).find? other.pageNumber =
      some found ∧ found.isDirty = old.isDirty := by
  have hpage : other.pageNumber ≠ address.pageNumber := by
    intro heq
    have hmapped : history.origin.contains other.pageNumber = true :=
      Option.isSome_iff_exists.mpr ⟨old, hold⟩
    rw [heq, h.not_contains_origin hunmapped] at hmapped
    contradiction
  rw [find?_mapping_pageNumber htable, if_neg hpage]
  exact h.inherited other old hold

theorem Populated.isDirty_mapping (htable : space.table.WellFormed) {entry : PageEntry}
    {writable : Bool} (hdirty : entry.isDirty = writable) {other : VirtualAddress}
    {found : PageEntry}
    (hfound : (space.table.mapping address.pageNumber entry).find? other.pageNumber = some found)
    (hnone : history.origin.contains other.pageNumber = false) :
    ∃ touch, (history.touched ⟨address.pageNumber, writable⟩).firstTouch? other.pageNumber =
      some touch ∧ found.isDirty = touch.writable := by
  rw [find?_mapping_pageNumber htable] at hfound
  rw [History.firstTouch?_touched]
  split at hfound
  · rename_i hpage
    obtain rfl := Option.some.inj hfound
    rw [hpage, History.firstTouch?_eq_none_iff.mpr (h.not_exists_touch hunmapped), if_pos rfl]
    exact ⟨_, rfl, hdirty⟩
  · obtain ⟨touch, htouch, hflag⟩ := h.isDirty other found hfound hnone
    rw [htouch]
    exact ⟨touch, rfl, hflag⟩

theorem Populated.card_populated_touched (writable : Bool) :
    (history.touched ⟨address.pageNumber, writable⟩).populated.card =
      history.populated.card + 1 := by
  have hinsert : (history.touched ⟨address.pageNumber, writable⟩).populated =
      insert address.pageNumber history.populated := by
    ext page
    rw [Finset.mem_insert, History.mem_populated, History.mem_populated,
      History.exists_touch_touched, or_and_right, or_comm, eq_comm]
    refine or_congr_left (and_iff_left_of_imp ?_)
    rintro rfl
    exact h.not_contains_origin hunmapped
  have hfresh : address.pageNumber ∉ history.populated :=
    fun hmem => h.not_exists_touch hunmapped (History.mem_populated.mp hmem).1
  rw [hinsert, Finset.card_insert_of_notMem hfresh]

theorem populated_first (htable : space.table.WellFormed) {entry : PageEntry} {writable : Bool}
    (hdirty : entry.isDirty = writable) :
    Populated { space with table := space.table.mapping address.pageNumber entry }
      ((history.touched ⟨address.pageNumber, writable⟩).charged 1) where
  contains other := by
    change _ ↔ history.origin.contains other.pageNumber = true ∨
      ∃ touch ∈ (history.touched ⟨address.pageNumber, writable⟩).touches,
        touch.page = other.pageNumber
    rw [contains_mapping_pageNumber htable, h.contains other, or_assoc,
      History.exists_touch_touched]
  inherited _ _ hold := h.inherited_mapping hunmapped htable entry hold
  isDirty _ _ hfound hnone := h.isDirty_mapping hunmapped htable hdirty hfound hnone
  allocated := by
    change history.allocated + 1 = _
    rw [h.allocated]
    exact (h.card_populated_touched hunmapped writable).symm

end First

end Touched

theorem kept_populated : Chronicle.Kept Populated where
  blank := populated_blank
  fork _ hfork := populated_fork hfork _
  withRegion h _ := populated_of_same h (fun _ => rfl) rfl rfl rfl
  opened h _ := populated_of_same h (fun _ => rfl) rfl rfl rfl
  closed h _ := populated_of_same h (fun _ => rfl) rfl rfl rfl
  touched h htable htouches := by
    cases htouches with
    | again hmapped =>
        rw [Nat.sub_self]
        exact populated_again h hmapped _
    | first hunmapped hdeciding hdirty hallocations =>
        rw [hallocations, Nat.add_sub_cancel_left, writableAt, hdeciding]
        exact populated_first h hunmapped htable hdirty
  withBlock first h htable :=
    populated_of_same h (PageTable.find?_withBlock htable first) rfl rfl rfl

theorem Touches.find? {page : PageNumber} {t next : AddressSpace × FramePool}
    (h : Touches page t next) (htable : t.1.table.WellFormed) {other : PageNumber}
    {entry : PageEntry} (hentry : t.1.table.find? other = some entry) :
    next.1.table.find? other = some entry := by
  cases h with
  | again hmapped => exact hentry
  | first hunmapped hdeciding hdirty hallocations =>
      refine (PageTable.find?_mapping htable page _ other).trans ?_
      rw [if_neg, hentry]
      intro hplace
      rw [PageTable.contains_eq_false_iff, ← PageTable.find?_of_place_eq _ hplace, hentry]
        at hunmapped
      contradiction

end AddressSpace

def Deed.ends : Deed → Bool
  | .make _ | .copy _ | .giveUp => true
  | _ => false

theorem Request.ending?_of_deed? {request : Request} {slot : SlotId} {deed : Deed}
    (hdeed : request.deed? = some (slot, deed)) (hends : deed.ends = true) :
    request.ending? = some slot := by
  cases request with
  | space other request => cases request <;> cases hdeed <;> first | rfl | contradiction
  | processor id request => cases request <;> cases hdeed <;> contradiction
  | _ => cases hdeed

namespace Session

variable {n : Nat} {s : Session n} {slot : SlotId} {space : AddressSpace} {page : PageNumber}
  {entry : PageEntry}

theorem find?_of_declined {t : Session n} {deed : Deed} (h : Declined s t slot deed)
    (htable : space.table.WellFormed) (hspace : s.spaces.get? slot = some space)
    (hentry : space.table.find? page = some entry) :
    ∃ later, t.spaces.get? slot = some later ∧ later.table.find? page = some entry := by
  cases deed with
  | copy source =>
      have hspaces : t.spaces = s.spaces := h
      exact ⟨space, hspaces ▸ hspace, hentry⟩
  | touch other =>
      obtain ⟨-, hsame | ⟨before, first, hbefore, hnext⟩⟩ := h
      · exact ⟨space, hsame.trans hspace, hentry⟩
      · obtain rfl := Option.some.inj (hspace.symm.trans hbefore)
        exact ⟨_, hnext, (PageTable.find?_withBlock htable first page).trans hentry⟩
  | _ =>
      obtain rfl : t = s := h
      exact ⟨space, hspace, hentry⟩

theorem find?_of_did {t : Session n} {request : Request} {deed : Deed} (h : Did s t slot deed)
    (hdeed : request.deed? = some (slot, deed)) (hstays : request.ending? ≠ some slot)
    (htable : space.table.WellFormed) (hspace : s.spaces.get? slot = some space)
    (hentry : space.table.find? page = some entry) :
    ∃ later, t.spaces.get? slot = some later ∧ later.table.find? page = some entry := by
  cases deed with
  | declare declaration =>
      obtain ⟨before, region, hbefore, -, hnext⟩ := h
      obtain rfl := Option.some.inj (hspace.symm.trans hbefore)
      exact ⟨_, hnext, hentry⟩
  | beginLoad =>
      obtain ⟨before, hbefore, -, hnext⟩ := h
      obtain rfl := Option.some.inj (hspace.symm.trans hbefore)
      exact ⟨_, hnext, hentry⟩
  | endLoad =>
      obtain ⟨before, hbefore, -, hnext⟩ := h
      obtain rfl := Option.some.inj (hspace.symm.trans hbefore)
      exact ⟨_, hnext, hentry⟩
  | touch other =>
      obtain ⟨before, next, address, hbefore, hnext, -, htouches⟩ := h
      obtain rfl := Option.some.inj (hspace.symm.trans (space?_eq_some_iff.mp hbefore).1)
      exact ⟨next.1, (space?_eq_some_iff.mp hnext).1, htouches.find? htable hentry⟩
  | _ => exact absurd (Request.ending?_of_deed? hdeed rfl) hstays

end Session

namespace Chronicle

open Session (answer)

variable {n : Nat} {c : Chronicle n} {slot : SlotId} {space : AddressSpace} {page : PageNumber}
  {entry : PageEntry}

/-- The runs in which the space in a slot is neither given up nor replaced. -/
def Lasts (slot : SlotId) (c : Chronicle n) : List Request → Prop
  | [] => True
  | request :: rest =>
      request.done? Request.ending? (answer request c.session).result ≠ some slot ∧
        (c.after request).Lasts slot rest

theorem find?_after (h : Recorded c) {request : Request} (hallows : c.Allows request)
    (hstays : request.done? Request.ending? (answer request c.session).result ≠ some slot)
    (hspace : c.session.spaces.get? slot = some space)
    (hentry : space.table.find? page = some entry) :
    ∃ later, (c.after request).session.spaces.get? slot = some later ∧
      later.table.find? page = some entry := by
  have htable : space.table.WellFormed :=
    h.reachable.balances.wellFormed space.table (Session.mem_liveTables_of_space hspace)
  cases h.effect hallows.2 slot with
  | elsewhere hdeed hsame => exact ⟨space, hsame.trans hspace, hentry⟩
  | declined deed hdeed reason hresult hreason hdeclined =>
      exact Session.find?_of_declined hdeclined htable hspace hentry
  | did deed hdeed a hresult hdid =>
      rw [Request.done?, hresult] at hstays
      exact Session.find?_of_did hdid hdeed hstays htable hspace hentry

theorem find?_run (h : Recorded c) {requests : List Request} (hallows : c.AllowsAll requests)
    (hlasts : c.Lasts slot requests) (hspace : c.session.spaces.get? slot = some space)
    (hentry : space.table.find? page = some entry) :
    ∃ later, (c.run requests).session.spaces.get? slot = some later ∧
      later.table.find? page = some entry := by
  induction requests generalizing c space with
  | nil => exact ⟨space, hspace, hentry⟩
  | cons request rest ih =>
      obtain ⟨next, hnext, hkept⟩ := find?_after h hallows.1 hlasts.1 hspace hentry
      exact ih (h.step request hallows.1) hallows.2 hlasts.2 hnext hkept

/-- In every state of every run the pages of a space are mapped in which a fault was served since
the space was made, and those that it has from the space of which it is a copy. The faults have
taken one frame for each page that they have mapped, and such a page is dirty if its region could be
written at the first fault that was served in it. An entry stays the same until the space is gone.
-/
theorem populated_of_recorded (h : Recorded c) (hspace : c.session.spaces.get? slot = some space) :
    (∃ history, c.histories slot = some history ∧ space.Populated history) ∧
      ∀ requests, c.AllowsAll requests → c.Lasts slot requests →
        ∀ page entry, space.table.find? page = some entry →
          ∃ later, (c.run requests).session.spaces.get? slot = some later ∧
            later.table.find? page = some entry :=
  ⟨h.keeps AddressSpace.kept_populated slot space hspace,
    fun _ hallows hlasts _ _ hentry => find?_run h hallows hlasts hspace hentry⟩

/-- A space in which a page was read before it could be written, and then stored to in a load phase.
The pool has no frame for its other page. -/
def readThenStored : Chronicle 1 :=
  (ofLimits #[1] #[.sole]).run
    [.space 0 (.new 0), .space 0 (.define 0x1000 0x2000 .read),
      .processor 0 (.fault 0 .read 0x1000), .space 0 .beginLoad,
      .processor 0 (.fault 0 .write 0x1234), .processor 0 (.fault 0 .read 0x2000)]

theorem recorded_readThenStored : Recorded readThenStored :=
  (recorded_ofLimits #[1] #[.sole]).run
    (⟨⟨trivial, trivial⟩, ⟨trivial, trivial⟩, ⟨trivial, Request.masksOwn_of_single _ _⟩,
      ⟨trivial, trivial⟩, ⟨trivial, Request.masksOwn_of_single _ _⟩,
      ⟨trivial, Request.masksOwn_of_single _ _⟩, trivial⟩ :
      (ofLimits #[1] #[.sole]).AllowsAll
        [.space 0 (.new 0), .space 0 (.define 0x1000 0x2000 .read),
          .processor 0 (.fault 0 .read 0x1000), .space 0 .beginLoad,
          .processor 0 (.fault 0 .write 0x1234), .processor 0 (.fault 0 .read 0x2000)])

theorem populated_of_readThenStored :
    ∃ (space : AddressSpace) (history : History) (entry : PageEntry) (later : AddressSpace),
      readThenStored.session.spaces.get? 0 = some space ∧
      readThenStored.histories 0 = some history ∧
      history.touches = [⟨⟨1⟩, false⟩, ⟨⟨1⟩, true⟩] ∧ history.allocated = 1 ∧
      space.Populated history ∧
      space.table.find? ⟨1⟩ = some entry ∧ entry.isDirty = false ∧
      (readThenStored.run [.space 0 (.endLoad 0)]).session.spaces.get? 0 = some later ∧
      later.table.find? ⟨1⟩ = some entry := by
  have hfound : (readThenStored.session.spaces.get? 0).map (fun space =>
      (space.table.find? ⟨1⟩).map PageEntry.isDirty) = some (some false) := by
    decide +kernel
  obtain ⟨space, hspace, hdirty⟩ := Option.map_eq_some_iff.mp hfound
  obtain ⟨entry, hentry, hdirty⟩ := Option.map_eq_some_iff.mp hdirty
  obtain ⟨⟨history, hhistory, hpopulated⟩, hkept⟩ :=
    populated_of_recorded recorded_readThenStored hspace
  have hnoted : (readThenStored.histories 0).map (fun history =>
      (history.touches, history.allocated)) = some ([⟨⟨1⟩, false⟩, ⟨⟨1⟩, true⟩], 1) := by
    decide +kernel
  rw [hhistory] at hnoted
  obtain ⟨htouches, hallocated⟩ := Prod.mk.inj (Option.some.inj hnoted)
  obtain ⟨later, hlater, hsame⟩ := hkept [.space 0 (.endLoad 0)]
    ⟨⟨trivial, Request.masksOwn_of_single _ _⟩, trivial⟩
    ⟨Request.done?_ne_of_ne (by decide) _, trivial⟩ _ entry hentry
  exact ⟨space, history, entry, later, hspace, hhistory, htouches, hallocated, hpopulated, hentry,
    hdirty, hlater, hsame⟩

end Chronicle

end DemandPaging
