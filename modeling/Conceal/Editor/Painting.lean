import Conceal.Editor.Grid
import Conceal.Editor.TextArea

/-!
What is painted over the text: the texts and borders of the decorations, and the carets beside the
main one. A stretch that does not lie in one line is not painted.
-/

namespace Conceal

/-- One thing that is painted. -/
inductive Stroke where
  /-- A text in the middle of a rectangle. -/
  | text (rect : Rect) (text : String) (color : Color) (italic bold underline : Bool)
  /-- A border, half a pixel inside of a rectangle. -/
  | border (rect : Rect) (color : Color) (width : Float)
  | fill (rect : Rect) (color : Color)

/-- The edges of a border: left, top, width and height. -/
def Rect.inset (r : Rect) : Float × Float × Float × Float :=
  (Float.ofInt r.x + 0.5, Float.ofInt r.y + 0.5, Float.ofInt r.width - 0.5 - 0.5,
    Float.ofInt r.height - 0.5 - 0.5)

namespace TextArea

/-- The color that text has by itself. -/
def textColor : Color := ⟨0, 0, 0, 255⟩

/-- The opacity of a caret as wide as a character. -/
def blockAlpha : Nat := 110

/-- The width of the main caret in pixels. -/
def caretWidth (a : TextArea) : Nat := if a.hasBlockCaret then Grid.cellWidth else 1

/-- The rectangle of a stretch. -/
def rectOf? (a : TextArea) (s : Stretch) : Option Rect :=
  let us := Text.encodeUnits a.text.toList
  let left := Grid.rectAt us (a.reach (a.toPosition s.start) 0)
  let right := Grid.rectAt us (a.reach (a.toPosition s.stop) 0)
  if left.y = right.y then some { left with width := max 1 (right.x - left.x) } else none

/-- What a layer shows in place of its stretches. -/
def replacement? (l : Layer) : Option String :=
  if l.look.hidesSource then l.look.text.filter (· != "") else none

/-- Is there anything to paint for a layer? -/
def isPainted (palette : Palette) (l : Layer) : Bool :=
  (replacement? l).isSome || (l.style palette).borderColor.isSome

/-- The strokes of a layer on one rectangle. -/
def strokesAt (palette : Palette) (l : Layer) (rect : Rect) : List Stroke :=
  let style := l.style palette
  ((replacement? l).map fun text =>
      .text rect text (style.foreground.getD textColor) style.italic style.bold
        style.underline).toList
    ++ (style.borderColor.map fun color => .border rect color style.borderWidth).toList

/-- The strokes of the carets. -/
def caretStrokes (a : TextArea) : List Stroke :=
  let us := Text.encodeUnits a.text.toList
  let color := if a.hasBlockCaret then { textColor with alpha := blockAlpha } else textColor
  a.carets.map fun position => .fill { Grid.rectAt us position with width := a.caretWidth } color

/-- Paints what lies in a rectangle. -/
def paint (a : TextArea) (layers : List Layer) (visible : Rect) : List Stroke × TextArea :=
  let painted := layers.filter (isPainted a.palette)
  let a := if painted.all (·.stretches.isEmpty) then a else a.capture
  let strokes := painted.flatMap fun l =>
    (l.stretches.filterMap a.rectOf?).flatMap fun rect =>
      if rect.overlaps visible then strokesAt a.palette l rect else []
  (strokes ++ a.caretStrokes, a)

/-- The text that a layer shows for a stretch that starts at an offset, and how many characters it
stands for. -/
def replacementAt? (layers : List Layer) (offset : Nat) : Option (Nat × String) :=
  layers.findSome? fun l =>
    (replacement? l).bind fun text =>
      (l.stretches.find? fun s => s.start == (offset : Int) && s.start < s.stop).map fun s =>
        ((s.stop - s.start).toNat, text)

/-- A text from an offset on as it reads with the replacements shown; `skip` characters are covered
by the last one. -/
def readFrom (layers : List Layer) (offset skip : Nat) : List Char → List Char
  | [] => []
  | c :: rest =>
    match skip with
    | n + 1 => readFrom layers (offset + 1) n rest
    | 0 =>
      match replacementAt? layers offset with
      | some (count, text) => text.toList ++ readFrom layers (offset + 1) (count - 1) rest
      | none => c :: readFrom layers (offset + 1) 0 rest

/-- The text as it reads with the replacements shown. -/
def maskedText (a : TextArea) (layers : List Layer) : String :=
  String.ofList (readFrom layers 0 0 a.text.toList)

end TextArea

end Conceal
