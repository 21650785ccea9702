import DemandPaging.Address.Virtual
import DemandPaging.Entry

namespace DemandPaging

/-- What a cache holds: the start of a page with the entry that maps it. -/
structure Mapping where
  page : VirtualAddress
  entry : PageEntry
  deriving DecidableEq, Repr

namespace Mapping

def new (page : VirtualAddress) (entry : PageEntry) : Except Violation Mapping := do
  Violation.unalignedPage.unless (page.pageOffset = 0)
  return ⟨page, entry⟩

/-- The mapping of three words. The entry is made first, then the address, then the pair. -/
def ofWords (page frame flags : UInt64) : Except Violation Mapping := do
  let entry ← PageEntry.new ⟨frame⟩ (.ofRaw flags)
  let page ← VirtualAddress.ofWord page
  new page entry

def shown (mapping : Mapping) : Shown :=
  .record "TlbEntry" [("page", mapping.page.shown), ("entry", mapping.entry.shown)]

end Mapping

end DemandPaging
