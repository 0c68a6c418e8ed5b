import Conceal.Mask.Look
import Conceal.Style.Color
import Conceal.Style.Declarations

/-!
The style that a decoration is drawn with, resolved from its fields. Declarations count more than
the field of the same meaning.
-/

namespace Conceal

/-- A style ready for drawing. -/
structure LayerStyle where
  foreground : Option Color := none
  background : Option Color := none
  italic : Bool := false
  bold : Bool := false
  underline : Bool := false
  borderColor : Option Color := none
  borderWidth : Float := 0.0
deriving Inhabited

namespace LayerStyle

/-- Is a weight bold: by name, or by a number from 600 on? -/
def isBold (weight : String) : Bool :=
  let s := Text.lower (Text.trim weight)
  if s = "bold" ∨ s = "bolder" then true
  else
    match Number.readInteger s with
    | some n => n ≥ 600
    | none => false

/-- Digits at the front and the rest. -/
def spanDigits (cs : List Char) : List Char × List Char :=
  cs.span fun c => Unicode.isDecimal c.toNat

/-- A width in pixels: digits, maybe a point and more digits, and the unit. -/
def pixels? (part : String) : Option Float :=
  let isUnit (cs : List Char) : Bool := Text.lower (String.ofList cs) == "px"
  let (whole, rest) := spanDigits part.toList
  if whole.isEmpty then none
  else if isUnit rest then Number.readFloat (String.ofList whole)
  else
    match rest with
    | '.' :: more =>
      let (places, tail) := spanDigits more
      if !places.isEmpty && isUnit tail then
        Number.readFloat (String.ofList (whole ++ '.' :: places))
      else none
    | _ => none

/-- Reads the words of a border: the last width and the last color count. -/
def borderWords (palette : Palette) :
    List String → Float × Option Color → Except Fault (Float × Option Color)
  | [], acc => .ok acc
  | word :: rest, (width, color) =>
    match pixels? word with
    | some w => borderWords palette rest (w, color)
    | none => do
      match ← Color.read palette word with
      | some c => borderWords palette rest (width, some c)
      | none => borderWords palette rest (width, color)

/-- Reads a border; one with a color and no width is one pixel wide. -/
def border (palette : Palette) (text : String) : Except Fault (Float × Option Color) := do
  let (width, color) ← borderWords palette (Text.words text) (0.0, none)
  return (if color.isSome && width <= 0.0 then 1.0 else width, color)

/-- A declaration if there is one, else a field. -/
def choose (declarations : List (String × String)) (names : List String) (field : Option String) :
    String :=
  ((names.filterMap (List.lookup · declarations)).head? <|> field).getD ""

/-- Resolves the style of a look with the colors of a host. -/
def ofLook (palette : Palette) (look : Look) : Except Fault LayerStyle := do
  let s := look.style
  let css := Declarations.read (s.css.getD "")
  let foreground ← Color.read palette (choose css ["color"] s.color)
  let background ←
    Color.read palette (choose css ["background-color", "background"] s.backgroundColor)
  let slant := Text.lower (Text.trim (choose css ["font-style"] s.fontStyle))
  let (width, sideColor) ← border palette (choose css ["border"] s.border)
  let ownColor ← Color.read palette (choose css ["border-color"] s.borderColor)
  let color := ownColor <|> sideColor
  let width := if ownColor.isSome && width == 0.0 then 1.0 else width
  return {
    foreground
    background
    italic := slant == "italic" || slant == "oblique"
    bold := isBold (choose css ["font-weight"] s.fontWeight)
    underline := Text.occursIn "underline".toList
      (Text.lower (choose css ["text-decoration"] none)).toList
    borderColor := color
    borderWidth := if color.isSome then width else 0.0 }

end LayerStyle

end Conceal
