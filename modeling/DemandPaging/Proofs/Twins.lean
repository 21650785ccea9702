import DemandPaging.Proofs.Agreement
import DemandPaging.Proofs.Declarations
import DemandPaging.Proofs.Fault
import DemandPaging.Proofs.InRange

/-!
Spaces that cannot be told apart by those who run in them. The same pages are mapped in both, with
the same flags and the same bytes, but to other frames, and the tables may keep them in another
order. Whatever is done in both leaves them so.
-/

namespace DemandPaging

theorem Memory.contents_setByte {memory : Memory} {address : Nat} (byte : UInt8)
    {frame : PhysicalAddress} (hframe : memory.Holds frame)
    (h : frame.frameIndex = address / Layout.pageSize) :
    (memory.setByte address byte).contents frame =
      (memory.contents frame).set (offset address).val byte (offset address).isLt := by
  have hpage := Array.getElem?_eq_getElem hframe
  rw [contents, setByte, Array.getElem?_modify, if_pos h.symm, contents, hpage]
  rfl

namespace AddressSpace

/-- What can be seen of a page: whether its entry is valid and dirty, and the bytes of its frame. -/
def sight (t : AddressSpace × FramePool) (page : PageNumber) : Option (Bool × Bool × Page) :=
  (t.1.table.find? page).map fun entry =>
    (entry.isValid, entry.isDirty, t.2.memory.contents entry.frame)

def byteAt (t : AddressSpace × FramePool) (address : VirtualAddress) : Option UInt8 :=
  (t.1.physical? address).bind fun target => t.2.memory.byte? target.word.toNat

section Sight

variable {space : AddressSpace} {pool next : FramePool} {owned : List PhysicalAddress}
  {page : PageNumber}

theorem sight_eq_none_iff {t : AddressSpace × FramePool} :
    sight t page = none ↔ t.1.table.find? page = none :=
  Option.map_eq_none_iff

theorem isSome_sight (t : AddressSpace × FramePool) (page : PageNumber) :
    (sight t page).isSome = t.1.table.contains page :=
  Option.isSome_map ..

theorem sight_of_find? {t : AddressSpace × FramePool} {entry : PageEntry}
    (h : t.1.table.find? page = some entry) :
    sight t page = some (entry.isValid, entry.isDirty, t.2.memory.contents entry.frame) := by
  rw [sight, h]
  rfl

theorem byteAt_eq (h : PageTable.Backed owned (space.table, pool)) (address : VirtualAddress) :
    byteAt (space, pool) address =
      (sight (space, pool) address.pageNumber).map fun shown => shown.2.2[address.offset] := by
  cases hentry : space.table.find? address.pageNumber with
  | none =>
      rw [byteAt, physical?_eq_none hentry, sight_eq_none_iff.mpr hentry]
      rfl
  | some entry =>
      obtain ⟨target, -, hphysical, -⟩ := exists_translation h hentry
      obtain ⟨found, hfound, hword⟩ := physical?_eq_some hphysical
      obtain rfl := Option.some.inj (hentry.symm.trans hfound)
      have hframe := List.mem_append_left owned (PageTable.frame_mem_frames hentry)
      have hholds := h.handedOut.holds (List.mem_append_right pool.free hframe)
      rw [byteAt, hphysical, Option.bind_some, hword,
        Memory.byte?_frame hholds entry.isPageAligned_frame, sight_of_find? hentry, Option.map_some]

theorem sight_withBlock (h : space.table.WellFormed) (first : FirstIndex) :
    sight ({ space with table := space.table.withBlock first }, pool) = sight (space, pool) := by
  funext page
  rw [sight, PageTable.find?_withBlock h, sight]

theorem sight_mapping (h : space.table.WellFormed) {frame : PhysicalAddress}
    (hnext : FramePool.HandedOut next (frame :: (space.table.frames ++ owned)))
    (hchange : pool.Allocates next) (page : PageNumber) (dirty : Bool) (other : PageNumber) :
    sight ({ space with table := space.table.mapping page (.fresh frame dirty) },
        next.withContents frame Page.zero) other =
      if other.place = page.place then some (true, dirty, Page.zero)
      else sight (space, pool) other := by
  rw [sight, PageTable.find?_mapping h]
  by_cases hplace : other.place = page.place
  · rw [if_pos hplace, if_pos hplace, Option.map_some, PageEntry.isValid_fresh,
      PageEntry.isDirty_fresh, PageEntry.frame_fresh hnext.isPageAligned_first]
    exact congrArg (fun contents => some (true, dirty, contents))
      (hnext.contents_withContents_first Page.zero)
  · rw [if_neg hplace, if_neg hplace]
    cases hentry : space.table.find? other with
    | none => exact (sight_eq_none_iff.mpr hentry).symm
    | some entry =>
        have hframe := List.mem_append_left owned (PageTable.frame_mem_frames hentry)
        rw [sight_of_find? hentry, Option.map_some, hnext.contents_withContents Page.zero hframe,
          hchange.memory]

theorem sight_setByte (h : PageTable.Backed owned (space.table, pool)) {address : VirtualAddress}
    {target : PhysicalAddress} (hphysical : space.physical? address = some target) (byte : UInt8)
    (page : PageNumber) :
    sight (space, { pool with memory := pool.memory.setByte target.word.toNat byte }) page =
      if page.place = address.pageNumber.place then
        (sight (space, pool) page).map fun shown =>
          (shown.1, shown.2.1, shown.2.2.set address.offset.val byte address.offset.isLt)
      else sight (space, pool) page := by
  obtain ⟨entry, hentry, hindex, hoffset⟩ := frameIndex_of_physical? hphysical
  have hframe := List.mem_append_left owned (PageTable.frame_mem_frames hentry)
  have hholds := h.handedOut.holds (List.mem_append_right pool.free hframe)
  by_cases hplace : page.place = address.pageNumber.place
  · have hpage := (PageTable.find?_of_place_eq space.table hplace).trans hentry
    rw [if_pos hplace, sight_of_find? hpage, sight_of_find? hpage, Option.map_some,
      Memory.contents_setByte byte hholds hindex.symm, hoffset]
  · rw [if_neg hplace]
    cases hother : space.table.find? page with
    | none => rw [sight_eq_none_iff.mpr hother, sight_eq_none_iff.mpr hother]
    | some another =>
        have hne : another.frame.frameIndex ≠ target.word.toNat / Layout.pageSize := by
          intro heq
          refine hplace (PageTable.place_eq_of_frame_eq h.wellFormed
            h.handedOut.nodup.of_append_left hother hentry ?_)
          exact PhysicalAddress.eq_of_frameIndex_eq another.isPageAligned_frame
            entry.isPageAligned_frame (heq.trans hindex)
        rw [sight_of_find? hother, sight_of_find? hother,
          Memory.contents_setByte_of_ne _ byte hne]

end Sight

/-- Spaces that look the same from within, each with its pool. The pools have the same number of
frames left. -/
structure Twins (one other : AddressSpace × FramePool) : Prop where
  regions : other.1.regions = one.1.regions
  stackBase : other.1.stackBase = one.1.stackBase
  loading : other.1.loading = one.1.loading
  pages : sight other = sight one
  limit : other.2.limit = one.2.limit
  outstanding : other.2.outstanding = one.2.outstanding

namespace Twins

variable {one other : AddressSpace × FramePool}

theorem eq_withTable (h : Twins one other) : other.1 = { one.1 with table := other.1.table } := by
  rcases other with ⟨⟨regions, table, stackBase, loading⟩, pool⟩
  simp only [← h.regions, ← h.stackBase, ← h.loading]

theorem contains_eq (h : Twins one other) (page : PageNumber) :
    other.1.table.contains page = one.1.table.contains page := by
  rw [← isSome_sight, h.pages, isSome_sight]

theorem exists_entry (h : Twins one other) {page : PageNumber} {entry : PageEntry}
    (hentry : one.1.table.find? page = some entry) :
    ∃ another, other.1.table.find? page = some another ∧ another.isValid = entry.isValid ∧
      another.isDirty = entry.isDirty := by
  have hsight := congrFun h.pages page
  rw [sight_of_find? hentry] at hsight
  obtain ⟨another, hanother, hshown⟩ := Option.map_eq_some_iff.mp hsight
  exact ⟨another, hanother, congrArg Prod.fst hshown, congrArg (·.2.1) hshown⟩

theorem redeclared (h : Twins one other) (space : AddressSpace) :
    Twins ({ space with table := one.1.table }, one.2)
      ({ space with table := other.1.table }, other.2) :=
  ⟨rfl, rfl, rfl, h.pages, h.limit, h.outstanding⟩

theorem withBlock (h : Twins one other) (hone : one.1.table.WellFormed)
    (hother : other.1.table.WellFormed) (first : FirstIndex) :
    Twins ({ one.1 with table := one.1.table.withBlock first }, one.2)
      ({ other.1 with table := other.1.table.withBlock first }, other.2) where
  regions := h.regions
  stackBase := h.stackBase
  loading := h.loading
  pages := by rw [sight_withBlock hone, sight_withBlock hother, h.pages]
  limit := h.limit
  outstanding := h.outstanding

section Frames

variable {owned others : List PhysicalAddress}
  (hone : PageTable.Backed owned (part one)) (hother : PageTable.Backed others (part other))

include hone hother

theorem length_eq (h : Twins one other) :
    (other.1.table.frames ++ others).length = (one.1.table.frames ++ owned).length :=
  hother.handedOut.outstanding_eq.symm.trans (h.outstanding.trans hone.handedOut.outstanding_eq)

theorem mapping (h : Twins one other) {frame another : PhysicalAddress} {next last : FramePool}
    (hnext : next.HandedOut (frame :: (one.1.table.frames ++ owned)))
    (hlast : last.HandedOut (another :: (other.1.table.frames ++ others)))
    (hchange : one.2.Allocates next) (halike : other.2.Allocates last) (page : PageNumber)
    (dirty : Bool) :
    Twins
      ({ one.1 with table := one.1.table.mapping page (.fresh frame dirty) },
        next.withContents frame Page.zero)
      ({ other.1 with table := other.1.table.mapping page (.fresh another dirty) },
        last.withContents another Page.zero) where
  regions := h.regions
  stackBase := h.stackBase
  loading := h.loading
  pages := by
    funext found
    have hfound : sight (other.1, other.2) found = sight (one.1, one.2) found :=
      congrFun h.pages found
    rw [sight_mapping hone.wellFormed hnext hchange, sight_mapping hother.wellFormed hlast halike,
      hfound]
  limit := (halike.limit.trans h.limit).trans hchange.limit.symm
  outstanding := by
    have hlength := h.length_eq hone hother
    have hfirst := (hnext.withContents frame Page.zero).outstanding_eq
    have hsecond := (hlast.withContents another Page.zero).outstanding_eq
    rw [hfirst, hsecond, List.length_cons, List.length_cons, hlength]

theorem setByte (h : Twins one other) {address : VirtualAddress} {target further : PhysicalAddress}
    (htarget : one.1.physical? address = some target)
    (hfurther : other.1.physical? address = some further) (byte : UInt8) :
    Twins (one.1, { one.2 with memory := one.2.memory.setByte target.word.toNat byte })
      (other.1, { other.2 with memory := other.2.memory.setByte further.word.toNat byte }) where
  regions := h.regions
  stackBase := h.stackBase
  loading := h.loading
  pages := by
    funext page
    have hpage : sight (other.1, other.2) page = sight (one.1, one.2) page :=
      congrFun h.pages page
    rw [sight_setByte hone htarget, sight_setByte hother hfurther, hpage]
  limit := h.limit
  outstanding := h.outstanding

theorem exists_byteAt (h : Twins one other) {address : VirtualAddress}
    (hmapped : one.1.table.contains address.pageNumber = true) :
    ∃ byte, byteAt one address = some byte ∧ byteAt other address = some byte := by
  rw [← isSome_sight] at hmapped
  obtain ⟨shown, hshown⟩ := Option.isSome_iff_exists.mp hmapped
  refine ⟨shown.2.2[address.offset], ?_, ?_⟩
  · rw [byteAt_eq hone, hshown]
    rfl
  · rw [byteAt_eq hother, h.pages, hshown]
    rfl

end Frames

end Twins

/-- A space that has taken in all pages of another one is its twin, as long as the bytes of the
frames stay what they are. -/
theorem twins_of_takesIn {space : AddressSpace} {target : PageTable} {pool next last : FramePool}
    {owned : List PhysicalAddress} (hspace : space.table.WellFormed)
    (hframes : space.table.frames ⊆ owned)
    (h : PageTable.TakesIn space.table.mappedPages owned (.empty space.table.pool, pool)
      (target, next))
    (hmemory : last.memory = next.memory) :
    Twins (space, last) ({ space with table := target }, last) where
  regions := rfl
  stackBase := rfl
  loading := rfl
  pages := by
    funext page
    cases hentry : space.table.find? page with
    | none =>
        have hcopied := (h.contains_copy page).trans (PageTable.contains_eq_false_iff.mpr hentry)
        rw [sight_eq_none_iff.mpr (PageTable.contains_eq_false_iff.mp hcopied),
          sight_eq_none_iff.mpr hentry]
    | some entry =>
        obtain ⟨copied, hcopied, hvalid, hdirty, hcontents⟩ := h.find?_copy hentry
        have hkept := h.contents entry.frame
          (List.mem_append_right _ (hframes (PageTable.frame_mem_frames hentry)))
        rw [sight_of_find? hcopied, sight_of_find? hentry, hmemory, hvalid, hdirty, hcontents,
          hkept, hspace.isValid hentry]
  limit := rfl
  outstanding := rfl

/-- What can be told apart in two spaces from within is the same: their declarations, which pages
are mapped and with which flags, and all bytes. -/
structure LooksLike (one other : AddressSpace × FramePool) : Prop where
  regions : other.1.regions = one.1.regions
  stackBase : other.1.stackBase = one.1.stackBase
  loading : other.1.loading = one.1.loading
  mapped : ∀ page, other.1.table.contains page = one.1.table.contains page
  flags : ∀ page entry, one.1.table.find? page = some entry →
    ∃ another, other.1.table.find? page = some another ∧ another.isValid = entry.isValid ∧
      another.isDirty = entry.isDirty
  bytes : ∀ address, one.1.table.contains address.pageNumber = true →
    ∃ byte, byteAt one address = some byte ∧ byteAt other address = some byte

theorem Twins.looksLike {one other : AddressSpace × FramePool} (h : Twins one other)
    {owned others : List PhysicalAddress} (hone : PageTable.Backed owned (part one))
    (hother : PageTable.Backed others (part other)) : LooksLike one other where
  regions := h.regions
  stackBase := h.stackBase
  loading := h.loading
  mapped := h.contains_eq
  flags _ _ := h.exists_entry
  bytes _ := h.exists_byteAt hone hother

section Resolve

variable {one other : AddressSpace × FramePool} {owned others : List PhysicalAddress}

theorem agrees_resolve (h : Twins one other) (hone : PageTable.Backed owned (part one))
    (hother : PageTable.Backed others (part other)) (access : Access) (address : VirtualAddress) :
    Outcome.Agrees Twins (fun mapping another => another.outline = mapping.outline)
      (resolve access address.pageNumber one) (resolve access address.pageNumber other) := by
  rcases one with ⟨space, pool⟩
  rcases other with ⟨twin, last⟩
  have hregions : twin.regions = space.regions := h.regions
  have hquiet := (aloof_resolve access address.pageNumber).quiet
  rcases denied_or_granted space access address.pageNumber with
    hdenied | ⟨region, hdeciding, hallowed⟩
  · obtain ⟨events, hresolve⟩ := resolve_of_denied pool hdenied
    obtain ⟨seen, htwin⟩ := resolve_of_denied last (hregions ▸ hdenied)
    exact .of_quiet_error hquiet hquiet hresolve htwin h
  · have htwinDeciding := hregions ▸ hdeciding
    cases hmapped : space.table.contains address.pageNumber with
    | true =>
        obtain ⟨entry, hentry⟩ := Option.isSome_iff_exists.mp hmapped
        obtain ⟨another, hanother, hvalid, hdirty⟩ := h.exists_entry hentry
        refine .of_quiet_ok hquiet hquiet (resolve_of_mapped hdeciding hallowed hentry)
          (resolve_of_mapped htwinDeciding hallowed hanother) ?_ h
        simp only [Mapping.outline, PageEntry.isValid_marked, PageEntry.isDirty_marked, hvalid,
          hdirty]
    | false =>
        have hunmapped := (h.contains_eq address.pageNumber).trans hmapped
        have hlength := h.length_eq hone hother
        have hlimit : last.limit = pool.limit := h.limit
        rcases Nat.lt_or_eq_of_le hone.handedOut.length_le with hroom | hfull
        · obtain ⟨frame, next, events, hresolve, hnext, hchange⟩ :=
            resolve_of_room hdeciding hallowed hone.wellFormed hone.handedOut hmapped hroom
          obtain ⟨another, final, seen, htwin, hfinal, halike⟩ :=
            resolve_of_room htwinDeciding hallowed hother.wellFormed hother.handedOut hunmapped
              (hlength.trans_lt (hlimit ▸ hroom))
          refine .of_quiet_ok hquiet hquiet hresolve htwin ?_
            (h.mapping hone hother hnext hfinal hchange halike _ _)
          simp only [Mapping.outline, PageEntry.isValid_marked, PageEntry.isDirty_marked,
            PageEntry.isValid_fresh]
        · obtain ⟨events, hresolve⟩ :=
            resolve_of_full hdeciding hallowed hone.wellFormed hone.handedOut hmapped hfull
          obtain ⟨seen, htwin⟩ := resolve_of_full htwinDeciding hallowed hother.wellFormed
            hother.handedOut hunmapped (hlength.trans (hfull.trans hlimit.symm))
          exact .of_quiet_error hquiet hquiet hresolve htwin
            (h.withBlock hone.wellFormed hother.wellFormed _)

end Resolve

section Declarations

variable {α : Type} {n : Nat} {one other : AddressSpace × FramePool}

theorem agrees_of_blind {x : Action AddressSpace α} (hx : Blind x) (h : Twins one other) :
    Outcome.Agrees Twins Eq (Action.first x one) (Action.first x other) := by
  have hone : (x one.1).state = { (x one.1).state with table := one.1.table } :=
    congrArg Outcome.state (hx one.1 one.1.table)
  have hother := hx one.1 other.1.table
  rw [← h.eq_withTable] at hother
  have htwins := h.redeclared (x one.1).state
  rw [← hone] at htwins
  rw [Action.first, Action.run_on, Action.run_on, hother]
  exact .of_same _ htwins _

/-- Spaces with the tables of twins and the same declarations, beside machines that resemble each
other. -/
def Alongside (one other : AddressSpace × FramePool) (p q : AddressSpace × Machines n) : Prop :=
  (∃ space : AddressSpace, p.1 = { space with table := one.1.table } ∧
      q.1 = { space with table := other.1.table }) ∧
    p.2.Resemble q.2

theorem agrees_endLoad (processor : Processor n) (h : Twins one other)
    {machines others : Machines n} (hmachines : machines.Resemble others) :
    Outcome.Agrees (Alongside one other) Eq (endLoad processor (one.1, machines))
      (endLoad processor (other.1, others)) := by
  cases hloading : one.1.loading with
  | false =>
      rw [endLoad_of_not_loading processor hloading,
        endLoad_of_not_loading processor (h.loading.trans hloading)]
      exact .stopped _ ⟨⟨one.1, rfl, h.eq_withTable⟩, hmachines⟩ rfl
  | true =>
      rw [endLoad_eq processor hloading, endLoad_eq processor (h.loading.trans hloading)]
      have hinvalidate := Processor.agrees_invalidate processor hmachines
      have hclosed : ∀ machines others : Machines n, machines.Resemble others →
          Alongside one other (one.1.closed, machines) (other.1.closed, others) := by
        intro machines others hmachines
        refine ⟨⟨one.1.closed, rfl, ?_⟩, hmachines⟩
        exact congrArg closed h.eq_withTable
      exact (hinvalidate.within (hclosed _ _ hinvalidate.state)).bind fun _ _ _ _ _ hstates =>
        .done rfl hstates rfl

end Declarations

end AddressSpace

namespace Context

variable {n : Nat} {machines others : Machines n} {one other : AddressSpace × FramePool}
  {owned rest : List PhysicalAddress}

def Alike (p q : Context × Machines n) : Prop :=
  (∃ one other, p.1 = some one ∧ q.1 = some other ∧ AddressSpace.Twins one other) ∧
    p.2.Resemble q.2

variable (h : AddressSpace.Twins one other) (hone : PageTable.Backed owned (AddressSpace.part one))
  (hother : PageTable.Backed rest (AddressSpace.part other)) (hmachines : machines.Resemble others)
  (processor : Processor n)

include h hone hother hmachines

/-- A fault in twins ends alike, whichever machines the processor writes. -/
theorem alike_handleFault (access : Access) (word : UInt64) :
    Outcome.Agrees Alike Eq (handleFault processor access word (some one, machines))
      (handleFault processor access word (some other, others)) :=
  agrees_handleFault processor
    (fun _ _ houtline => Processor.agrees_install processor hmachines houtline) h hmachines word
    fun address _ => AddressSpace.agrees_resolve h hone hother access address

theorem alike_handleRawFault (code : UInt32) (word : UInt64) :
    Outcome.Agrees Alike Eq (handleRawFault processor code word (some one, machines))
      (handleRawFault processor code word (some other, others)) := by
  rw [handleRawFault]
  cases Access.ofCode code with
  | ok access => exact alike_handleFault h hone hother hmachines processor access word
  | error reason =>
      exact .stopped (.refused reason) ⟨⟨one, other, rfl, rfl, h⟩, hmachines⟩ rfl

end Context

end DemandPaging
