namespace DemandPaging

/-- A value as text for a reader: on one line, and over several lines with four more blanks for each
level of nesting. -/
structure Shown where
  line : String
  lines : List String

namespace Shown

def atom (text : String) : Shown :=
  ⟨text, [text]⟩

private def indent (line : String) : String :=
  "    " ++ line

private def item (mark : String) : List String → List String
  | [] => [mark ++ ","]
  | [line] => [mark ++ line ++ ","]
  | line :: next :: rest => (mark ++ line) :: item "" (next :: rest)

def applied (name : String) (value : Shown) : Shown where
  line := name ++ "(" ++ value.line ++ ")"
  lines := (name ++ "(") :: (item "" value.lines).map indent ++ [")"]

def record (name : String) (fields : List (String × Shown)) : Shown where
  line :=
    name ++ " \x7b " ++
      String.intercalate ", " (fields.map fun field => field.1 ++ ": " ++ field.2.line) ++ " \x7d"
  lines :=
    (name ++ " \x7b") ::
      (fields.flatMap fun field => item (field.1 ++ ": ") field.2.lines).map indent ++ ["\x7d"]

def spread (value : Shown) : String :=
  String.intercalate "\n" value.lines

end Shown

end DemandPaging
