import DemandPaging.PageRange
import DemandPaging.Permissions

namespace DemandPaging

/-- Whole pages with permissions. While the space is loaded the permissions are widened, and the
declared ones are kept beside them. -/
structure Region where
  base : VirtualAddress
  size : UInt64
  permissions : Permissions
  savedPermissions : Permissions
  deriving DecidableEq, Repr

namespace Region

/-- The smallest region that holds `length` bytes from `address` on. It is refused if it would leave
the user address space. -/
def declare (address length : UInt64) (permissions : Permissions) : Except Stop Region := do
  let base := address &&& Layout.pageMask
  if !Layout.isUserAddress base then
    throw (.refused .invalidArgument)
  let some reach := (Checked.add? address length).bind (Checked.add? · 0xfff)
    | throw (.refused .invalidArgument)
  let finish := reach &&& Layout.pageMask
  let size ← Checked.sub finish base
  if size ≠ 0 then
    let last ← Checked.sub finish 1
    if !Layout.isUserAddress last then
      throw (.refused .invalidArgument)
  let base ← VirtualAddress.ofWord base
  return ⟨base, size, permissions, permissions⟩

def pages (region : Region) : PageRange :=
  let first := region.base.pageNumber
  .halfOpen first ⟨first.number + region.size / Layout.pageBytes⟩

def contains (region : Region) (page : PageNumber) : Bool :=
  region.pages.contains page

def widen (region : Region) : Region :=
  { region with savedPermissions := region.permissions, permissions := .readWrite }

def restore (region : Region) : Region :=
  { region with permissions := region.savedPermissions }

/-- The region that decides about a page: the last one declared of those that hold it. -/
def deciding? (regions : List Region) (page : PageNumber) : Option Region :=
  regions.reverse.find? fun region => region.contains page

theorem deciding?_append (regions : List Region) (region : Region) (page : PageNumber) :
    deciding? (regions ++ [region]) page =
      if region.contains page then some region else deciding? regions page := by
  simp only [deciding?, List.reverse_append, List.reverse_cons, List.reverse_nil, List.nil_append,
    List.singleton_append, List.find?_cons]
  cases region.contains page <;> rfl

def shown (region : Region) : Shown :=
  .record "Region"
    [("base", region.base.shown),
      ("size", .atom (toString region.size.toNat)),
      ("permissions", region.permissions.shown),
      ("saved_permissions", region.savedPermissions.shown)]

end Region

end DemandPaging
