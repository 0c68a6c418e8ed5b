import Conceal.Json.Basic
import Conceal.Number.Shortest
import Conceal.Text.Quoted

/-!
Writing values in the notation that `Conceal.Json.parse` reads.
-/

namespace Conceal.Json

/-- One character inside quotes. -/
def printChar (c : Char) : List Char :=
  if c = '"' ∨ c = '\\' then ['\\', c]
  else if c.toNat < 32 then '\\' :: 'u' :: Text.hexDigits 4 c.toNat
  else [c]

/-- A text in quotes. -/
def printText (s : String) : String :=
  String.ofList ('"' :: s.toList.flatMap printChar ++ ['"'])

/-- A fractional number, or one of the words for numbers that have no notation. -/
def printFloat (x : Float) : String :=
  match Number.Exact.ofFloat x with
  | .nan => "NaN"
  | .infinite negative => if negative then "-Infinity" else "Infinity"
  | e => e.text

mutual

/-- A value in its notation. -/
def print : Json → String
  | .null => "null"
  | .bool b => if b then "true" else "false"
  | .int i => toString i
  | .float x => printFloat x
  | .str s => printText s
  | .arr items => "[" ++ ", ".intercalate (printItems items) ++ "]"
  | .obj members => "\x7b" ++ ", ".intercalate (printMembers members) ++ "\x7d"

/-- The items of a list in their notation. -/
def printItems : List Json → List String
  | [] => []
  | item :: rest => print item :: printItems rest

/-- The members of an object in their notation. -/
def printMembers : List (String × Json) → List String
  | [] => []
  | (key, value) :: rest => (printText key ++ ": " ++ print value) :: printMembers rest

end

end Conceal.Json
