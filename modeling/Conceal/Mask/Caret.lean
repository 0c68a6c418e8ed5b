import Conceal.Json.Text
import Conceal.Text.Basic

/-!
Caret styles. A block or an underline is drawn one character left of the place of the caret, so it
touches a match one place earlier than a line does.
-/

namespace Conceal

/-- The styles that settings may name. -/
def caretStyles : List String :=
  ["line", "line-thin", "block", "block-outline", "underline", "underline-thin"]

/-- Does a caret of this style touch a match one place before its start? Any style whose name does
not begin with the word for a line does. -/
def revealsEarly (style : String) : Bool := !Text.beginsWith "line".toList style.toList

/-- The name of a style given as any value; what counts as no gives the empty name. -/
def caretStyleName (value : Json) : String := (value.orElse (.str "")).text

end Conceal
