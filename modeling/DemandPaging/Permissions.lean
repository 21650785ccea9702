import DemandPaging.Shown

namespace DemandPaging

structure Permissions where
  readable : Bool
  writable : Bool
  executable : Bool
  deriving DecidableEq, Repr, Inhabited

namespace Permissions

def empty : Permissions := ⟨false, false, false⟩

def execute : Permissions := ⟨false, false, true⟩

def write : Permissions := ⟨false, true, false⟩

def read : Permissions := ⟨true, false, false⟩

def readWrite : Permissions := ⟨true, true, false⟩

def all : Permissions := ⟨true, true, true⟩

def union (a b : Permissions) : Permissions :=
  ⟨a.readable || b.readable, a.writable || b.writable, a.executable || b.executable⟩

instance : OrOp Permissions :=
  ⟨union⟩

def contains (a b : Permissions) : Bool :=
  (!b.readable || a.readable) && (!b.writable || a.writable) && (!b.executable || a.executable)

/-- Three letters, each replaced by a dash where the permission is missing. -/
def letters (permissions : Permissions) : String :=
  (if permissions.readable then "r" else "-") ++ (if permissions.writable then "w" else "-") ++
    (if permissions.executable then "x" else "-")

def ofLetters (text : String) : Permissions :=
  ⟨text.contains 'r', text.contains 'w', text.contains 'x'⟩

instance : ToString Permissions where
  toString permissions := "Permissions(" ++ permissions.letters ++ ")"

def shown (permissions : Permissions) : Shown :=
  .atom (toString permissions)

end Permissions

end DemandPaging
