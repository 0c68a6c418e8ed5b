import Conceal.Json.Basic
import Conceal.Number.Notation
import Conceal.Number.Shortest
import Conceal.Text.Quoted

/-!
Values as text and as numbers. A text shows itself; inside a list or an object it is quoted. Reading
a whole number accepts truth values, fractional numbers (their whole part) and digits in a text.
-/

namespace Conceal.Json

mutual

/-- A value as a message quotes it. -/
def literal : Json → String
  | .null => "None"
  | .bool b => if b then "True" else "False"
  | .int i => toString i
  | .float x => Number.floatText x
  | .str s => Text.quoted s
  | .arr items => "[" ++ ", ".intercalate (literals items) ++ "]"
  | .obj members => "\x7b" ++ ", ".intercalate (memberLiterals members) ++ "\x7d"

/-- The items of a list as a message quotes them. -/
def literals : List Json → List String
  | [] => []
  | item :: rest => literal item :: literals rest

/-- The members of an object as a message quotes them. -/
def memberLiterals : List (String × Json) → List String
  | [] => []
  | (key, value) :: rest => (Text.quoted key ++ ": " ++ literal value) :: memberLiterals rest

end

/-- A value as text: a text itself, any other value as a message quotes it. -/
def text : Json → String
  | .str s => s
  | value => value.literal

/-- Reads a value as a whole number. -/
def toInteger : Json → Except Number.ReadFault Int
  | .bool b => .ok (if b then 1 else 0)
  | .int i => .ok i
  | .float x => Number.truncateFloat x
  | .str s =>
    match Number.readInteger s with
    | some i => .ok i
    | none => .error .malformed
  | _ => .error .wrongKind

end Conceal.Json
