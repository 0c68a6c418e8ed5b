import Conceal.Text.Basic

/-!
Style declarations: names and values with a colon between, and a semicolon after each.
-/

namespace Conceal.Declarations

/-- Gives a name a value: in place where it has one, else at the end. -/
def insert : List (String × String) → String → String → List (String × String)
  | [], name, value => [(name, value)]
  | (n, v) :: rest, name, value =>
    if n = name then (n, value) :: rest else (n, v) :: insert rest name value

/-- One declaration; a part without a colon, a name or a value declares nothing. -/
def declaration? (part : String) : Option (String × String) :=
  match Text.cutAt? ':' part with
  | none => none
  | some (name, value) =>
    let name := Text.lower (Text.trim name)
    let value := Text.trim value
    if name = "" ∨ value = "" then none else some (name, value)

/-- Reads declarations; of two for one name the later one counts. -/
def read (text : String) : List (String × String) :=
  ((Text.splitAt ';' text).filterMap declaration?).foldl (fun acc (n, v) => insert acc n v) []

end Conceal.Declarations
