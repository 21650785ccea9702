import DemandPaging.PageNumber

namespace DemandPaging

/-- The pages from a first one up to a second one, which is left out or kept. -/
inductive PageRange
  | halfOpen (first stop : PageNumber)
  | closed (first last : PageNumber)
  deriving DecidableEq, Repr

namespace PageRange

def contains : PageRange → PageNumber → Bool
  | halfOpen first stop, page => first.number ≤ page.number && page.number < stop.number
  | closed first last, page => first.number ≤ page.number && page.number ≤ last.number

def isEmpty : PageRange → Bool
  | halfOpen first stop => !(first.number < stop.number)
  | closed first last => !(first.number ≤ last.number)

/-- The lowest page and the range without it. A closed range of one page leaves an empty range,
since its last page may have no next one. -/
def next? : PageRange → Option (PageNumber × PageRange)
  | halfOpen first stop =>
      if first.number < stop.number then
        (first.forward? 1).map fun next => (first, halfOpen next stop)
      else none
  | closed first last =>
      if first.number < last.number then
        (first.forward? 1).map fun next => (first, closed next last)
      else if first = last then some (first, halfOpen last last)
      else none

def nextBack? : PageRange → Option (PageNumber × PageRange)
  | halfOpen first stop =>
      if first.number < stop.number then
        (stop.backward? 1).map fun last => (last, halfOpen first last)
      else none
  | closed first last =>
      if first.number < last.number then
        (last.backward? 1).map fun previous => (last, closed first previous)
      else if first = last then some (last, halfOpen first first)
      else none

def drop (range : PageRange) (count : UInt64) : PageRange :=
  match range with
  | halfOpen first stop =>
      match first.forward? count with
      | some next => halfOpen next stop
      | none => halfOpen stop stop
  | closed first last =>
      match first.forward? count with
      | some next => closed next last
      | none => halfOpen last last

def dropBack (range : PageRange) (count : UInt64) : PageRange :=
  match range with
  | halfOpen first stop =>
      match stop.backward? count with
      | some previous => halfOpen first previous
      | none => halfOpen first first
  | closed first last =>
      match last.backward? count with
      | some previous => closed first previous
      | none => halfOpen first first

def nth? (range : PageRange) (position : UInt64) : Option PageNumber :=
  (range.drop position).next?.map Prod.fst

def nthBack? (range : PageRange) (position : UInt64) : Option PageNumber :=
  (range.dropBack position).nextBack?.map Prod.fst

/-- At most `limit` pages from the lower end, and after each of them `skip` pages left out. -/
def sample (skip : UInt64) : Nat → PageRange → List PageNumber
  | 0, _ => []
  | limit + 1, range =>
      match range.next? with
      | some (page, rest) => page :: sample skip limit (rest.drop skip)
      | none => []

def sampleBack (skip : UInt64) : Nat → PageRange → List PageNumber
  | 0, _ => []
  | limit + 1, range =>
      match range.nextBack? with
      | some (page, rest) => page :: sampleBack skip limit (rest.dropBack skip)
      | none => []

def sizeHint (first stop : PageNumber) : UInt64 × Option UInt64 :=
  if first.number < stop.number then PageNumber.stepsBetween first stop else (0, some 0)

end PageRange

end DemandPaging
