import Conceal.Json.Text

/-!
How a decoration looks: a text to show, whether the source under it is hidden, and a style whose
fields are kept as they were written.
-/

namespace Conceal

/-- The style of a decoration, as written in the settings. -/
structure MaskStyle where
  backgroundColor : Option String := none
  border : Option String := none
  borderColor : Option String := none
  color : Option String := none
  fontStyle : Option String := none
  fontWeight : Option String := none
  css : Option String := none
deriving DecidableEq, Repr, Inhabited

namespace MaskStyle

/-- A field of a style; a field that is missing or empty is not set. -/
def field? : Json → Option String
  | .null => none
  | .str s => if s = "" then none else some s
  | value => some value.text

/-- Reads a style; a value that is no object sets nothing. -/
def ofJson : Json → MaskStyle
  | .obj members =>
    let get (key : String) : Option String := field? (Json.Members.get members key)
    { backgroundColor := get "backgroundColor"
      border := get "border"
      borderColor := get "borderColor"
      color := get "color"
      fontStyle := get "fontStyle"
      fontWeight := get "fontWeight"
      css := get "css" }
  | _ => {}

end MaskStyle

/-- How one decoration looks. -/
structure Look where
  text : Option String := none
  hidesSource : Bool := false
  style : MaskStyle := {}
deriving DecidableEq, Repr, Inhabited

/-- A look that shows a text in place of the source; an empty text leaves the source in sight. -/
def Look.replacing (text : Option String) (style : MaskStyle) : Look :=
  ⟨text, text.any (· != ""), style⟩

/-- A decorated stretch of a document, with a text to show when the pointer rests on it. -/
structure Stretch where
  start : Int
  stop : Int
  hover : Option String := none
deriving DecidableEq, Repr, Inhabited

end Conceal
