import Mathlib.Algebra.Order.Ring.Nat
import Mathlib.Algebra.Ring.Int.Defs
import Mathlib.Data.List.Basic
import DemandPaging.PageRange

namespace DemandPaging

namespace PageNumber

def ofExact? (number : Int) : Option PageNumber :=
  if 0 ≤ number ∧ number < 2 ^ 64 then some ⟨.ofNat number.toNat⟩ else none

section Steps

variable {page start finish : PageNumber} {count : UInt64}

theorem exists_toNat_eq {number : Nat} (h : number < 2 ^ 64) :
    ∃ page : PageNumber, page.number.toNat = number :=
  ⟨⟨.ofNat number⟩, UInt64.toNat_ofNat_of_lt' h⟩

theorem ofExact?_eq_some_iff {number : Int} :
    ofExact? number = some page ↔ (page.number.toNat : Int) = number := by
  rw [ofExact?]
  split
  · rename_i hword
    have hlt : number.toNat < 2 ^ 64 := by omega
    rw [Option.some.injEq, ← toNat_number_inj, UInt64.toNat_ofNat_of_lt' hlt]
    omega
  · rename_i hword
    have hlt := page.number.toNat_lt
    refine iff_of_false (by simp) ?_
    omega

theorem ofExact?_eq_none_iff {number : Int} :
    ofExact? number = none ↔ number < 0 ∨ 2 ^ 64 ≤ number := by
  rw [ofExact?, ite_eq_right_iff]
  constructor
  · intro h
    by_contra hword
    cases h (by omega)
  · intro hout hword
    omega

theorem forward?_eq (page : PageNumber) (count : UInt64) :
    page.forward? count = ofExact? (page.number.toNat + count.toNat) := by
  apply Option.ext
  intro next
  rw [forward?_eq_some_iff, ofExact?_eq_some_iff]
  omega

theorem backward?_eq (page : PageNumber) (count : UInt64) :
    page.backward? count = ofExact? (page.number.toNat - count.toNat) := by
  apply Option.ext
  intro next
  rw [backward?_eq_some_iff, ofExact?_eq_some_iff]
  omega

theorem forward?_bind_forward? (page : PageNumber) (count more : UInt64) :
    (page.forward? count).bind (·.forward? more) =
      ofExact? (page.number.toNat + (count.toNat + more.toNat)) := by
  apply Option.ext
  intro next
  rw [Option.bind_eq_some_iff, ofExact?_eq_some_iff]
  constructor
  · rintro ⟨middle, hmiddle, hnext⟩
    rw [forward?_eq_some_iff] at hmiddle hnext
    omega
  · intro hsum
    have hlt := next.number.toNat_lt
    obtain ⟨middle, hmiddle⟩ : ∃ middle : PageNumber,
        middle.number.toNat = page.number.toNat + count.toNat := exists_toNat_eq (by omega)
    refine ⟨middle, ?_⟩
    rw [forward?_eq_some_iff, forward?_eq_some_iff]
    omega

theorem backward?_bind_backward? (page : PageNumber) (count more : UInt64) :
    (page.backward? count).bind (·.backward? more) =
      ofExact? (page.number.toNat - (count.toNat + more.toNat)) := by
  apply Option.ext
  intro next
  rw [Option.bind_eq_some_iff, ofExact?_eq_some_iff]
  constructor
  · rintro ⟨middle, hmiddle, hnext⟩
    rw [backward?_eq_some_iff] at hmiddle hnext
    omega
  · intro hsum
    have hlt := page.number.toNat_lt
    obtain ⟨middle, hmiddle⟩ : ∃ middle : PageNumber,
        middle.number.toNat = page.number.toNat - count.toNat := exists_toNat_eq (by omega)
    refine ⟨middle, ?_⟩
    rw [backward?_eq_some_iff, backward?_eq_some_iff]
    omega

theorem exists_forward?_one (h : page.number < finish.number) :
    ∃ next, page.forward? 1 = some next ∧ next.number.toNat = page.number.toNat + 1 := by
  rw [UInt64.lt_iff_toNat_lt] at h
  have hlt := finish.number.toNat_lt
  obtain ⟨next, hnext⟩ : ∃ next : PageNumber, next.number.toNat = page.number.toNat + 1 :=
    exists_toNat_eq (by omega)
  exact ⟨next, forward?_eq_some_iff.mpr hnext.symm, hnext⟩

theorem exists_backward?_one (h : start.number < page.number) :
    ∃ previous, page.backward? 1 = some previous ∧
      page.number.toNat = previous.number.toNat + 1 := by
  rw [UInt64.lt_iff_toNat_lt] at h
  have hlt := page.number.toNat_lt
  obtain ⟨previous, hprevious⟩ : ∃ previous : PageNumber,
      previous.number.toNat = page.number.toNat - 1 := exists_toNat_eq (by omega)
  have hpage : page.number.toNat = previous.number.toNat + 1 := by omega
  exact ⟨previous, backward?_eq_some_iff.mpr (hpage.trans (Nat.add_comm ..)), hpage⟩

theorem stepsBetween_eq_iff :
    stepsBetween start finish = (count, some count) ↔
      start.number.toNat + count.toNat = finish.number.toNat := by
  rw [eq_comm (a := start.number.toNat + _), ← Checked.sub?_eq_some_iff, stepsBetween]
  cases Checked.sub? finish.number start.number <;> simp

theorem stepsBetween_eq_none_iff :
    stepsBetween start finish = (0, none) ↔ finish.number < start.number := by
  rw [UInt64.lt_iff_toNat_lt, stepsBetween]
  cases hsteps : Checked.sub? finish.number start.number with
  | some steps =>
      rw [Checked.sub?_eq_some_iff] at hsteps
      refine iff_of_false (by simp) ?_
      omega
  | none =>
      refine iff_of_true rfl ?_
      by_contra hle
      obtain ⟨steps, hsome⟩ := Checked.exists_sub (Nat.not_lt.mp hle)
      rw [Checked.sub?, hsome] at hsteps
      cases hsteps

end Steps

/-- The pages with the numbers from a first one up to another one, which is left out. -/
def between (first stop : Nat) : List PageNumber :=
  (List.range' first (stop - first)).map fun number => ⟨.ofNat number⟩

section Between

variable {page : PageNumber} {first stop : Nat}

theorem between_eq_nil (h : stop ≤ first) : between first stop = [] := by
  rw [between, Nat.sub_eq_zero_of_le h]
  rfl

theorem ofNat_eq_of_toNat_eq (h : page.number.toNat = first) : ⟨.ofNat first⟩ = page := by
  rw [← h, UInt64.ofNat_toNat]

theorem between_eq_cons (hlt : first < stop) (hpage : page.number.toNat = first) :
    between first stop = page :: between (first + 1) stop := by
  have hcount : stop - first = stop - (first + 1) + 1 := by omega
  rw [between, hcount, List.range'_succ, List.map_cons, ofNat_eq_of_toNat_eq hpage]
  rfl

theorem between_eq_concat (hle : first ≤ stop) (hpage : page.number.toNat = stop) :
    between first (stop + 1) = between first stop ++ [page] := by
  have hcount : stop + 1 - first = stop - first + 1 := by omega
  have hlast : first + (stop - first) = stop := by omega
  rw [between, hcount, List.range'_1_concat, List.map_append, hlast, List.map_singleton,
    ofNat_eq_of_toNat_eq hpage]
  rfl

theorem mem_between_iff (hword : stop ≤ 2 ^ 64) :
    page ∈ between first stop ↔ first ≤ page.number.toNat ∧ page.number.toNat < stop := by
  rw [between, List.mem_map]
  constructor
  · rintro ⟨number, hnumber, rfl⟩
    rw [List.mem_range'_1] at hnumber
    have hlt : number < 2 ^ 64 := by omega
    rw [UInt64.toNat_ofNat_of_lt' hlt]
    omega
  · rintro ⟨hle, hlt⟩
    refine ⟨page.number.toNat, List.mem_range'_1.mpr (by omega), ofNat_eq_of_toNat_eq rfl⟩

theorem pairwise_between (hword : stop ≤ 2 ^ 64) :
    (between first stop).Pairwise fun page later => page.number < later.number := by
  rw [between, List.pairwise_map]
  refine (List.pairwise_lt_range' ..).imp_of_mem fun {number later} hnumber hlater hlt => ?_
  rw [List.mem_range'_1] at hnumber hlater
  have hsmall : number < 2 ^ 64 := by omega
  have hlarge : later < 2 ^ 64 := by omega
  rw [UInt64.lt_iff_toNat_lt, UInt64.toNat_ofNat_of_lt' hsmall, UInt64.toNat_ofNat_of_lt' hlarge]
  exact hlt

end Between

/-- What is known of steps of two lengths between two pages. They are counted, made upwards and made
downwards with the same result, and a second step goes on from where the first one has ended, as
long as there is a page. -/
structure StepsExactly (start finish : PageNumber) (count more : UInt64) : Prop where
  counted_iff : stepsBetween start finish = (count, some count) ↔
    start.forward? count = some finish
  undone_iff : start.forward? count = some finish ↔ finish.backward? count = some start
  reversed_iff : stepsBetween start finish = (0, none) ↔ finish.number < start.number
  forward_eq : start.forward? count = ofExact? (start.number.toNat + count.toNat)
  forward_forward : (start.forward? count).bind (·.forward? more) =
    ofExact? (start.number.toNat + (count.toNat + more.toNat))
  forward_none_iff : (start.forward? count).bind (·.forward? more) = none ↔
    2 ^ 64 - 1 < start.number.toNat + (count.toNat + more.toNat)
  backward_eq : start.backward? count = ofExact? (start.number.toNat - count.toNat)
  backward_backward : (start.backward? count).bind (·.backward? more) =
    ofExact? (start.number.toNat - (count.toNat + more.toNat))
  backward_none_iff : (start.backward? count).bind (·.backward? more) = none ↔
    start.number.toNat < count.toNat + more.toNat

theorem stepsExactly (start finish : PageNumber) (count more : UInt64) :
    StepsExactly start finish count more where
  counted_iff := stepsBetween_eq_iff.trans forward?_eq_some_iff.symm
  undone_iff := by
    rw [forward?_eq_some_iff, backward?_eq_some_iff]
    omega
  reversed_iff := stepsBetween_eq_none_iff
  forward_eq := start.forward?_eq count
  forward_forward := start.forward?_bind_forward? count more
  forward_none_iff := by
    rw [forward?_bind_forward?, ofExact?_eq_none_iff]
    omega
  backward_eq := start.backward?_eq count
  backward_backward := start.backward?_bind_backward? count more
  backward_none_iff := by
    have hlt := start.number.toNat_lt
    rw [backward?_bind_backward?, ofExact?_eq_none_iff]
    omega

end PageNumber

namespace PageRange

def pages : PageRange → List PageNumber
  | halfOpen first stop => PageNumber.between first.number.toNat stop.number.toNat
  | closed first last => PageNumber.between first.number.toNat (last.number.toNat + 1)

theorem mem_pages_iff {range : PageRange} {page : PageNumber} :
    page ∈ range.pages ↔ range.contains page = true := by
  cases range with
  | halfOpen first stop =>
      rw [pages, PageNumber.mem_between_iff (Nat.le_of_lt stop.number.toNat_lt)]
      simp [contains, UInt64.le_iff_toNat_le, UInt64.lt_iff_toNat_lt]
  | closed first last =>
      rw [pages, PageNumber.mem_between_iff last.number.toNat_lt, Nat.lt_succ_iff]
      simp [contains, UInt64.le_iff_toNat_le]

theorem pairwise_pages (range : PageRange) :
    range.pages.Pairwise fun page later => page.number < later.number := by
  cases range with
  | halfOpen first stop => exact PageNumber.pairwise_between (Nat.le_of_lt stop.number.toNat_lt)
  | closed first last => exact PageNumber.pairwise_between last.number.toNat_lt

theorem next?_cases (range : PageRange) :
    range.next? = none ∧ range.pages = [] ∨
      ∃ page rest, range.next? = some (page, rest) ∧ range.pages = page :: rest.pages := by
  cases range with
  | halfOpen first stop =>
      rw [next?, pages]
      split
      · rename_i hlt
        obtain ⟨next, hnext, hsucc⟩ := PageNumber.exists_forward?_one hlt
        refine .inr ⟨first, halfOpen next stop, by rw [hnext, Option.map_some], ?_⟩
        rw [PageNumber.between_eq_cons (UInt64.lt_iff_toNat_lt.mp hlt) rfl, pages, hsucc]
      · rename_i hge
        rw [UInt64.lt_iff_toNat_lt, Nat.not_lt] at hge
        exact .inl ⟨rfl, PageNumber.between_eq_nil hge⟩
  | closed first last =>
      rw [next?, pages]
      split
      · rename_i hlt
        obtain ⟨next, hnext, hsucc⟩ := PageNumber.exists_forward?_one hlt
        refine .inr ⟨first, closed next last, by rw [hnext, Option.map_some], ?_⟩
        have hstop := Nat.lt_succ_of_lt (UInt64.lt_iff_toNat_lt.mp hlt)
        rw [PageNumber.between_eq_cons hstop rfl, pages, hsucc]
      · rename_i hge
        rw [UInt64.lt_iff_toNat_lt] at hge
        split
        · rename_i heq
          -- The last page is handed out without a step, for there may be none behind it.
          subst heq
          refine .inr ⟨first, halfOpen first first, rfl, ?_⟩
          rw [PageNumber.between_eq_cons (Nat.lt_succ_self _) rfl, pages,
            PageNumber.between_eq_nil (Nat.le_refl _), PageNumber.between_eq_nil (Nat.le_refl _)]
        · rename_i hne
          rw [← PageNumber.toNat_number_inj] at hne
          exact .inl ⟨rfl, PageNumber.between_eq_nil (by omega)⟩

theorem nextBack?_cases (range : PageRange) :
    range.nextBack? = none ∧ range.pages = [] ∨
      ∃ page rest, range.nextBack? = some (page, rest) ∧ range.pages = rest.pages ++ [page] := by
  cases range with
  | halfOpen first stop =>
      rw [nextBack?, pages]
      split
      · rename_i hlt
        obtain ⟨last, hlast, hsucc⟩ := PageNumber.exists_backward?_one hlt
        refine .inr ⟨last, halfOpen first last, by rw [hlast, Option.map_some], ?_⟩
        rw [UInt64.lt_iff_toNat_lt] at hlt
        rw [hsucc, PageNumber.between_eq_concat (by omega) rfl, pages]
      · rename_i hge
        rw [UInt64.lt_iff_toNat_lt, Nat.not_lt] at hge
        exact .inl ⟨rfl, PageNumber.between_eq_nil hge⟩
  | closed first last =>
      rw [nextBack?, pages]
      split
      · rename_i hlt
        obtain ⟨previous, hprevious, hsucc⟩ := PageNumber.exists_backward?_one hlt
        refine .inr ⟨last, closed first previous, by rw [hprevious, Option.map_some], ?_⟩
        rw [UInt64.lt_iff_toNat_lt] at hlt
        rw [PageNumber.between_eq_concat (Nat.le_of_lt hlt) rfl, hsucc, pages]
      · rename_i hge
        rw [UInt64.lt_iff_toNat_lt] at hge
        split
        · rename_i heq
          subst heq
          refine .inr ⟨first, halfOpen first first, rfl, ?_⟩
          rw [PageNumber.between_eq_concat (Nat.le_refl _) rfl, pages]
        · rename_i hne
          rw [← PageNumber.toNat_number_inj] at hne
          exact .inl ⟨rfl, PageNumber.between_eq_nil (by omega)⟩

/-- What a range hands out if it is walked by one kind of step until there is no further page. -/
inductive Yields (step : PageRange → Option (PageNumber × PageRange)) :
    PageRange → List PageNumber → Prop
  | stop {range : PageRange} (h : step range = none) : Yields step range []
  | next {range rest : PageRange} {page : PageNumber} {visited : List PageNumber}
      (h : step range = some (page, rest)) (hrest : Yields step rest visited) :
      Yields step range (page :: visited)

section Yields

variable {step : PageRange → Option (PageNumber × PageRange)} {range : PageRange}

theorem Yields.unique {visited others : List PageNumber} (h : Yields step range visited)
    (hothers : Yields step range others) : visited = others := by
  induction h generalizing others with
  | stop hstop =>
      cases hothers with
      | stop => rfl
      | next hnext =>
          rw [hstop] at hnext
          cases hnext
  | next hnext _ ih =>
      cases hothers with
      | stop hstop =>
          rw [hstop] at hnext
          cases hnext
      | next hother hrest =>
          obtain ⟨rfl, rfl⟩ := Prod.mk.inj (Option.some.inj (hnext.symm.trans hother))
          rw [ih hrest]

/-- If each step takes the first page off a list that belongs to the range, and the steps end with
an empty list, then this list is what is handed out. -/
theorem yields_iff (listed : PageRange → List PageNumber)
    (hstep : ∀ range, step range = none ∧ listed range = [] ∨
      ∃ page rest, step range = some (page, rest) ∧ listed range = page :: listed rest)
    {visited : List PageNumber} : Yields step range visited ↔ visited = listed range := by
  have hyields : Yields step range (listed range) := by
    induction hlisted : listed range generalizing range with
    | nil =>
        rcases hstep range with ⟨hstop, -⟩ | ⟨page, rest, -, hcons⟩
        · exact .stop hstop
        · rw [hlisted] at hcons
          cases hcons
    | cons page visited ih =>
        rcases hstep range with ⟨-, hnil⟩ | ⟨first, rest, hnext, hcons⟩
        · rw [hlisted] at hnil
          cases hnil
        · rw [hlisted] at hcons
          obtain ⟨rfl, hrest⟩ := List.cons.inj hcons
          exact .next hnext (ih hrest.symm)
  constructor
  · intro h
    exact h.unique hyields
  · rintro rfl
    exact hyields

end Yields

/-- What it means that walking a range visits some pages: from below they are handed out in this
order, from above in the opposite one, and then the walk stops. Their numbers grow, and they are the
pages of the range. -/
structure Visits (range : PageRange) (pages : List PageNumber) : Prop where
  upwards : ∀ visited, Yields next? range visited ↔ visited = pages
  downwards : ∀ visited, Yields nextBack? range visited ↔ visited = pages.reverse
  increasing : pages.Pairwise fun page later => page.number < later.number
  mem_iff : ∀ page, page ∈ pages ↔ range.contains page = true

theorem visits_pages (range : PageRange) : range.Visits range.pages where
  upwards _ := yields_iff pages next?_cases
  downwards _ := by
    refine yields_iff (fun range => range.pages.reverse) fun range => ?_
    rcases range.nextBack?_cases with ⟨hstop, hnil⟩ | ⟨page, rest, hnext, hconcat⟩
    · exact .inl ⟨hstop, by rw [hnil, List.reverse_nil]⟩
    · exact .inr ⟨page, rest, hnext, by rw [hconcat, List.reverse_concat]⟩
  increasing := range.pairwise_pages
  mem_iff _ := mem_pages_iff

end PageRange

/-- Steps are exact, and walking a range by single steps from either end visits each of its pages
once, in the order of their numbers, and stops. -/
theorem steps_exactly (start finish : PageNumber) (count more : UInt64) (range : PageRange) :
    PageNumber.StepsExactly start finish count more ∧ ∃ pages, range.Visits pages :=
  ⟨PageNumber.stepsExactly start finish count more, range.pages, range.visits_pages⟩

/-- The walk stops behind the last page that a word can number. -/
example : PageRange.sample 0 3 (.closed ⟨0xfffffffffffffffe⟩ ⟨0xffffffffffffffff⟩) =
    [⟨0xfffffffffffffffe⟩, ⟨0xffffffffffffffff⟩] := by
  decide

end DemandPaging
