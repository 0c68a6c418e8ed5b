import Conceal.Text.Basic

/-!
File paths with slashes. A path is a root, which is empty for a relative path, and the names below
it; single dots and doubled slashes are dropped as the path is read. Two slashes at the very start
are a root of their own.
-/

namespace Conceal

/-- A path: where it starts and the names on the way. -/
structure Path where
  root : String
  names : List String
deriving DecidableEq, Repr, Inhabited

namespace Path

/-- The root that a text starts with. -/
def rootOf : List Char → String
  | '/' :: '/' :: '/' :: _ => "/"
  | '/' :: '/' :: _ => "//"
  | '/' :: _ => "/"
  | _ => ""

/-- Reads a path. -/
def ofString (s : String) : Path :=
  ⟨rootOf s.toList, (Text.splitAt '/' s).filter fun name => name != "" && name != "."⟩

/-- The text of a path; a relative path without names is a dot. -/
def toString (p : Path) : String :=
  if p.root = "" ∧ p.names = [] then "." else p.root ++ "/".intercalate p.names

instance : ToString Path := ⟨toString⟩

/-- Can there be a file at the path? No name of a file holds the character zero. -/
def usable (p : Path) : Bool := p.names.all fun name => !name.toList.contains '\x00'

/-- The last name, or nothing. -/
def name (p : Path) : String := p.names.getLastD ""

/-- The last dot of a name and what follows, unless the dot comes first or last. -/
def suffixOf (name : String) : String :=
  let cs := name.toList
  let after := cs.reverse.takeWhile (· != '.')
  if after.length + 1 < cs.length ∧ after ≠ [] then String.ofList ('.' :: after.reverse) else ""

/-- The suffix of the last name. -/
def suffix (p : Path) : String := suffixOf p.name

/-- The path without its last name. -/
def parent (p : Path) : Path := { p with names := p.names.dropLast }

/-- A path below another one; an absolute path stays as it is. -/
def join (base below : Path) : Path :=
  if below.root = "" then { base with names := base.names ++ below.names } else below

/-- Takes back a name for every two dots. -/
def foldUp (names : List String) : List String :=
  (names.foldl (fun acc n => if n = ".." then acc.drop 1 else n :: acc) []).reverse

/-- The path without two dots, starting at the one root there is; `base` is where relative paths
start. -/
def resolve (base p : Path) : Path := ⟨"/", foldUp (base.join p).names⟩

end Path

end Conceal
