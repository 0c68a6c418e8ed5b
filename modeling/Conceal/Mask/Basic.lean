import Conceal.Fault
import Conceal.Mask.Look

/-!
Masks: a pattern, and what is shown in place of its matches. The replacement is the same for all
matches, or chosen by the exact text that matched. Main function: `Mask.ofJson`, which accepts the
entries of the settings.
-/

namespace Conceal

/-- A pattern of the settings, ready to be searched for. -/
structure Pattern where
  source : String
  ignoreCase : Bool
  regex : Regex
deriving Repr

/-- The replacement of one exact text. -/
structure Override where
  text : String
  scope : Option String := none
  hover : Option String := none
  style : MaskStyle := {}
deriving DecidableEq, Repr, Inhabited

/-- What is shown in place of matches. -/
inductive Replacement where
  /-- One text for all, or none. -/
  | same (text : Option String)
  /-- A text for each exact match that is listed. -/
  | byText (overrides : List (String × Override))
deriving DecidableEq, Repr

/-- How the matches of a pattern are masked. -/
structure Mask where
  replacement : Replacement := .same none
  scope : Option String := none
  hover : Option String := none
  style : MaskStyle := {}
deriving DecidableEq, Repr

namespace Pattern

/-- Reads the pattern of an entry. -/
def ofJson (entry : Json) : Except Fault Pattern :=
  match entry with
  | .obj members =>
    match (Json.Members.get? members "ignoreCase").getD (.bool false) with
    | .bool ignoreCase =>
      match Json.Members.get members "pattern" with
      | .str source =>
        if source = "" then .error (.mask .patternEmpty)
        else
          match Regex.compile source { ignoreCase } with
          | .ok regex => .ok ⟨source, ignoreCase, regex⟩
          | .error e => .error (Fault.ofPattern (.mask (.badPattern source)) e)
      | _ => .error (.mask .patternEmpty)
    | other => .error (.mask (.ignoreCaseNotBool other.kindName))
  | _ => .error (.mask .entryNotObject)

/-- The matches in a text up to the first empty one. -/
def matchesFrom (p : Pattern) (text : Array Char) : Nat → Nat → List Regex.Found
  | 0, _ => []
  | fuel + 1, pos =>
    match p.regex.search? text pos with
    | none => []
    | some m => if m.start = m.stop then [] else m :: matchesFrom p text fuel m.stop

/-- The matches in a text up to the first empty one. -/
def matchesIn (p : Pattern) (text : Array Char) : List Regex.Found :=
  p.matchesFrom text (text.size + 1) 0

end Pattern

namespace Mask

/-- A field that holds a text; missing and empty ones are not set. -/
def textField (members : Json.Members) (key : String) : Except Fault (Option String) :=
  match members.get key with
  | .null => .ok none
  | .str s => .ok (if s = "" then none else some s)
  | other => .error (.mask (.fieldNotText key other.kindName))

/-- Reads the replacement of one exact text. -/
def overrideOf (literal : String) : Json → Except Fault Override
  | .str text => .ok { text }
  | .obj members =>
    match (Json.Members.get? members "text").getD (Json.Members.get members "value") with
    | .str text => do
      let scope ← textField members "scope"
      let hover ← textField members "hover"
      return ⟨text, scope, hover, MaskStyle.ofJson (.obj members)⟩
    | _ => .error (.mask (.replacementWithoutText literal))
  | _ => .error (.mask (.replacementNotObject literal))

/-- Reads the replacements of exact texts. -/
def overridesOf : List (String × Json) → Except Fault (List (String × Override))
  | [] => .ok []
  | (literal, value) :: rest => do
    let first ← overrideOf literal value
    let others ← overridesOf rest
    return (literal, first) :: others

/-- Reads what is shown in place of matches. -/
def replacementOf : Json → Except Fault Replacement
  | .null => .ok (.same none)
  | .str text => .ok (.same (if text = "" then none else some text))
  | .obj members => (overridesOf members).map .byText
  | _ => .error (.mask .replaceNotText)

/-- Reads how the matches of an entry's pattern are masked. -/
def ofJson (entry : Json) : Except Fault Mask :=
  match entry with
  | .obj members => do
    let replacement ← replacementOf (Json.Members.get members "replace")
    let scope ← textField members "scope"
    let hover ← textField members "hover"
    return ⟨replacement, scope, hover, MaskStyle.ofJson (Json.Members.get members "style")⟩
  | _ => .error (.mask .entryNotObject)

/-- The replacement of an exact text, where there is one of its own. -/
def override? (m : Mask) (text : String) : Option Override :=
  match m.replacement with
  | .same _ => none
  | .byText overrides => overrides.lookup text

/-- The text shown for all matches, where it is the same for all. -/
def sameText? (m : Mask) : Option String :=
  match m.replacement with
  | .same text => text
  | .byText _ => none

/-- How matches look that have no replacement of their own. -/
def baseLook (m : Mask) : Look := .replacing m.sameText? m.style

/-- How matches with a replacement of their own look. -/
def overrideLook (o : Override) : Look := .replacing (some o.text) o.style

/-- What stands between a pattern and a text in the key of the text's own decoration. -/
def keySeparator : String := "@@@"

/-- The key of the decoration of matches with one exact text. -/
def derivedKey (base literal : String) : String := base ++ keySeparator ++ literal

end Mask

end Conceal
