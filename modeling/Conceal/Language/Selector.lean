import Conceal.Fault
import Conceal.Language.Basic
import Conceal.Language.Glob

/-!
Selectors: which documents a set of rules is for. A selector names languages or gives globs for file
paths; a star alone selects everything.
-/

namespace Conceal.Selector

/-- Is a selector a glob rather than the name of a language? -/
def isGlob (s : String) : Bool := s.toList.any fun c => "*?[/\\".toList.contains c

/-- Does a glob select a file? It is tried on the whole path and on the last name, and there also
without a leading double star. -/
def globSelects (glob path : String) : Bool :=
  let p := Path.ofString (String.ofList (path.toList.map fun c => if c = '\\' then '/' else c))
  Glob.fits glob p.toString
    || (Text.beginsWith "**/".toList glob.toList
      && Glob.fits (String.ofList (glob.toList.drop 3)) p.name)
    || Glob.fits glob p.name

/-- The selectors in a value: a text is one, a list and an object hold several. -/
def candidates : Json → Except Fault (List String)
  | .null => .ok []
  | .str s => .ok [s]
  | .arr items => .ok (items.filterMap fun
      | .str s => some s
      | _ => none)
  | .obj members => .ok (members.map (·.1))
  | _ => .error .wrongKind

/-- Does one selector select a document of a language with a file? -/
def selects (language path : Json) (selector : String) : Bool :=
  let text := Text.trim selector
  if text = "" then false
  else if text = "*" then true
  else if isGlob text then path.isTruthy && globSelects text path.text
  else Text.lower text == Language.normalize (language.orElse (.str "")).text

/-- Does a selector, given as any value, select a document? -/
def matching (selector language : Json) (path : Json := .null) : Except Fault Bool :=
  (candidates selector).map fun texts => texts.any (selects language path)

end Conceal.Selector
