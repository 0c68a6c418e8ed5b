import Conceal.Fault
import Conceal.Mask.Caret
import Conceal.Text.Basic

/-!
The section of the settings that this library reads. Whatever a file says is merged over the
defaults and brought into range, so that what is read from a section always makes sense.
-/

namespace Conceal.Settings

/-- The key of the section in a settings file. -/
def sectionKey : String := "symbol_masks"

/-- The pause before an update, in milliseconds, where none is set. -/
def defaultDebounce : Int := 50

/-- The shortest pause. -/
def minDebounce : Int := 10

/-- The longest pause. -/
def maxDebounce : Int := 2000

/-- An object of texts. -/
def texts (members : List (String × String)) : Json :=
  .obj (members.map fun (key, value) => (key, .str value))

/-- The rules that hold where none are set. -/
def defaultRules : Json :=
  .arr [
    .obj [
      ("selector", .arr [.str "javascript", .str "typescript"]),
      ("patterns", .arr [
        .obj [
          ("pattern", .str "(?<=[\\s])===(?=[\\s])"),
          ("replace", .str "≡"),
          ("scope", .str "keyword.operator"),
          ("style", texts [("fontWeight", "bold")])],
        .obj [
          ("pattern", .str "=>"),
          ("replace", .str "⇒"),
          ("scope", .str "storage.type.function.arrow")]])],
    .obj [
      ("selector", .str "python"),
      ("patterns", .arr [
        .obj [
          ("pattern", .str "!=|<=|>=|->|\\blambda\\b"),
          ("replace", .obj [
            ("!=", texts [("text", "≠"), ("scope", "keyword.operator.comparison")]),
            ("<=", texts [("text", "≤"), ("scope", "keyword.operator.comparison")]),
            (">=", texts [("text", "≥"), ("scope", "keyword.operator.comparison")]),
            ("->", texts [("text", "→"), ("scope", "punctuation.separator.annotation.result")]),
            ("lambda", texts [("text", "λ"), ("scope", "storage.type.function.lambda"),
              ("hover", "lambda")])])]])]]

/-- The section where nothing is set. -/
def defaults : Json.Members :=
  [("enabled", .bool true), ("debounce_ms", .int defaultDebounce), ("cursor_style", .str "line"),
    ("masks", defaultRules)]

/-- All settings where nothing is set. -/
def allDefaults : Json := .obj [(sectionKey, .obj defaults)]

/-- The pause that a value stands for, in range; what is no number stands for the default. An
infinite number fails. -/
def debounceOf (value : Json) : Except Fault Int :=
  match value.toInteger with
  | .ok i => .ok (max minDebounce (min maxDebounce i))
  | .error .unbounded => .error .unbounded
  | .error _ => .ok defaultDebounce

/-- The caret style that a value stands for, the plain line where it is none of the styles. -/
def caretStyleOf (value : Json) : String :=
  let s := Text.lower (Text.trim (value.orElse (.str "line")).text)
  if caretStyles.contains s then s else "line"

/-- Is the value an object? -/
def isObject : Json → Bool
  | .obj _ => true
  | _ => false

/-- The rules in a value: the objects of a list. -/
def rulesOf : Json → List Json
  | .arr items => items.filter isObject
  | _ => []

/-- The members that a value sets. -/
def membersOf : Json → Json.Members
  | .obj members => members
  | _ => []

/-- Merges a value over the defaults and brings every field into range. -/
def normalize (raw : Json) : Except Fault Json.Members := do
  let merged := Json.Members.insertAll defaults (membersOf raw)
  let debounce ← debounceOf (merged.get "debounce_ms")
  return merged
    |>.insert "enabled" (.bool (merged.get "enabled").isTruthy)
    |>.insert "debounce_ms" (.int debounce)
    |>.insert "cursor_style" (.str (caretStyleOf (merged.get "cursor_style")))
    |>.insert "masks" (.arr (rulesOf (merged.get "masks")))

/-- Follows keys into nested objects; `none` where one is missing. -/
def follow (value : Json) : List String → Option Json
  | [] => some value
  | key :: rest =>
    match value with
    | .obj members =>
      match Json.Members.get? members key with
      | some inner => follow inner rest
      | none => none
    | _ => none

/-- The value at a path of keys joined by dots, or a default; an empty path gives the value
itself. -/
def get (value : Json) (path : String) (default : Json := .null) : Json :=
  if path = "" then value else (follow value (Text.splitAt '.' path)).getD default

/-- The value at a path that is given as any value: what counts as no is the empty path, and nothing
else but a text is a path. -/
def getAny (value path : Json) (default : Json := .null) : Except Fault Json :=
  match path with
  | .str path => .ok (get value path default)
  | path => if path.isTruthy then .error .noProperty else .ok value

end Conceal.Settings
