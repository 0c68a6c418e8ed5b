import Conceal.Editor.Grid
import Conceal.Editor.TextArea

/-!
The mouse and the keyboard: setting carets with the mouse, removing them with a key, and the text
that is shown while the pointer rests on a decoration.
-/

namespace Conceal

/-- What happens to the text at the pointer. -/
inductive Tooltip where
  | show (text : String)
  | hide
deriving DecidableEq, Repr

namespace TextArea

/-- The position at a point. -/
def positionAt (a : TextArea) (x y : Int) : Nat :=
  Grid.positionAt (Text.encodeUnits a.text.toList) x y

/-- A press of a mouse button moves the caret. The main button also removes all other carets or,
with the key for it held down, puts one more; then the press is used up. -/
def press (a : TextArea) (x y : Int) (main extra : Bool) : Bool × TextArea × List Signal :=
  if main && extra then
    let a := a.capture
    let (_, a, signals) := a.addCaret (a.toOffset (a.positionAt x y))
    (true, a, signals)
  else
    let (a, cleared) := if main then a.clearCarets else (a, [])
    let position := a.positionAt x y
    let (a, moved) := a.setCaret position position
    (false, a, cleared ++ moved)

/-- The escape key removes the carets beside the main one; tells whether the key is used up. -/
def escape (a : TextArea) : Bool × TextArea × List Signal :=
  let (b, signals) := a.clearCarets
  (!a.carets.isEmpty, b, signals)

/-- Moves the pointer: the text of the decoration there is shown, unless it is shown already. -/
def point (a : TextArea) (layers : List Layer) (x y : Int) : List Tooltip × TextArea :=
  let a := a.capture
  match Canvas.hoverAt? layers (a.toOffset (a.positionAt x y)) with
  | some text => (if text = a.hover then [] else [.show text], { a with hover := text })
  | none => (if a.hover = "" then [] else [.hide], { a with hover := "" })

end TextArea

end Conceal
