import Conceal.Decoration.Canvas
import Conceal.Document
import Conceal.Editor.Signal
import Conceal.File.Tree
import Conceal.Language.Basic
import Conceal.Step
import Conceal.Style.Layer
import Conceal.Text.Units

/-!
Text areas: a text that is typed, with a caret and more carets beside it. Positions in the area are
counted in UTF-16 units, offsets in characters. Every operation answers with the area after it and
with the signals that it sends, in order.
-/

namespace Conceal

/-- How a selection is drawn. -/
inductive Format where
  /-- The line of the caret, over its full width. -/
  | currentLine
  | styled (foreground background : Option Color) (italic bold underline : Bool)
deriving DecidableEq, Repr

/-- A selection that is drawn. -/
structure Highlight where
  anchor : Nat
  position : Nat
  format : Format
deriving DecidableEq, Repr

/-- A snapshot of a document, and whether a character of its text takes two units. -/
structure Snapshot where
  document : Document
  hasPairs : Bool
deriving DecidableEq, Repr

/-- A new snapshot. -/
def Snapshot.ofDocument (d : Document) : Snapshot where
  document := d
  hasPairs := d.text.toList.any fun c => Text.unitsOf c != 1

/-- A text area. -/
structure TextArea where
  text : String := ""
  revision : Nat := 0
  modified : Bool := false
  anchor : Nat := 0
  position : Nat := 0
  readOnly : Bool := false
  filePath : Option String := none
  caretStyle : String := "line"
  /-- The carets beside the main one. -/
  carets : List Nat := []
  /-- The selections of the decorations. -/
  highlights : List Highlight := []
  /-- All selections that are drawn. -/
  shown : List Highlight := []
  /-- The text that the pointer shows, empty for none. -/
  hover : String := ""
  /-- The last snapshot. -/
  taken : Option Snapshot := none
  /-- How many snapshots were taken anew. -/
  snapshots : Nat := 0
  /-- The colors that the host knows. -/
  palette : Palette := .basic
deriving Inhabited

/-- The style that a layer is drawn with, in the colors of a host. -/
def Layer.style (l : Layer) (palette : Palette) : LayerStyle :=
  (LayerStyle.ofLook palette l.look).toOption.getD {}

namespace TextArea

/-! ## Snapshots -/

/-- The language of the area's file. -/
def languageId (a : TextArea) : String := Language.ofPath a.filePath

/-- The area's document. -/
def document (a : TextArea) : Document where
  text := a.text
  languageId := a.languageId
  filePath := a.filePath
  revision := a.revision
  dirty := a.modified

/-- Does a snapshot still hold? Its revision, its file and its being modified tell; the text itself
is not looked at. -/
def holds (a : TextArea) (s : Snapshot) : Bool :=
  s.document.revision == a.revision && s.document.filePath == a.filePath
    && s.document.dirty == a.modified

/-- The last snapshot while it holds, else a new one. -/
def snapshot (a : TextArea) : Snapshot :=
  (a.taken.filter a.holds).getD (Snapshot.ofDocument a.document)

/-- Takes a snapshot, unless the last one still holds. -/
def capture (a : TextArea) : TextArea :=
  if (a.taken.filter a.holds).isSome then a
  else { a with taken := some a.snapshot, snapshots := a.snapshots + 1 }

/-! ## Offsets and positions -/

/-- How many units the text takes. -/
def length (a : TextArea) : Nat := Text.units a.text.toList

/-- The position of an offset; a negative offset counts from the end. In a text without pairs the
two are one number, whatever it is. Both the text and whether it has pairs are the snapshot's. -/
def toPosition (a : TextArea) (offset : Int) : Int :=
  if a.snapshot.hasPairs then
    let cs := a.snapshot.document.text.toList
    let offset := if offset < 0 then cs.length + offset else offset
    Text.units (cs.take offset.toNat)
  else offset

/-- The offset of a position; one inside of a pair counts as the one after it. -/
def toOffset (a : TextArea) (position : Int) : Int :=
  if a.snapshot.hasPairs then Text.charsForUnits a.snapshot.document.text.toList position.toNat
  else position

/-- The ends of all selections as offsets, the main one first. -/
def selections (a : TextArea) : List (Int × Int) :=
  (a.toOffset a.anchor, a.toOffset a.position)
    :: a.carets.map fun (p : Nat) => (a.toOffset p, a.toOffset p)

/-! ## Drawn selections -/

/-- Draws the selections of the decorations, and under them the line of the caret. -/
def showSelections (a : TextArea) : TextArea :=
  let line := if a.readOnly then [] else [⟨a.position, a.position, .currentLine⟩]
  { a with shown := line ++ a.highlights }

/-- A position that can be reached, or else the one that was there before. -/
def reach (a : TextArea) (target : Int) (before : Nat) : Nat :=
  if 0 ≤ target ∧ target ≤ a.length then target.toNat else before

/-- The selection of one stretch. -/
def highlight (a : TextArea) (format : Format) (s : Stretch) : Highlight :=
  let anchor := a.reach (a.toPosition s.start) 0
  ⟨anchor, a.reach (a.toPosition s.stop) anchor, format⟩

/-- How the selections of a layer are drawn: the source is made invisible where it is hidden. -/
def formatOf (palette : Palette) (l : Layer) : Format :=
  let style := l.style palette
  .styled (if l.look.hidesSource then some ⟨0, 0, 0, 0⟩ else style.foreground) style.background
    style.italic style.bold (style.underline && !l.look.hidesSource)

/-- Draws the selections of layers. -/
def showLayers (a : TextArea) (layers : List Layer) : TextArea :=
  let highlights := layers.flatMap fun l => l.stretches.map (a.highlight (formatOf a.palette l))
  let a := if highlights.isEmpty then a else a.capture
  showSelections { a with highlights }

/-! ## Editing -/

/-- Takes another text; the caret goes to its start. -/
def setText (a : TextArea) (text : String) : TextArea × List Signal :=
  ({ a with text, revision := a.revision + 1, modified := false, anchor := 0, position := 0 },
    [.textChanged])

/-- Puts a text in the place of the selection. Fails where the selection ends inside of a pair. -/
def insert (a : TextArea) (text : String) : Except Fault (TextArea × List Signal) :=
  let us := Text.encodeUnits a.text.toList
  let lo := min a.anchor a.position
  let hi := max a.anchor a.position
  match Text.decodeUnits? (us.take lo ++ Text.encodeUnits text.toList ++ us.drop hi) with
  | none => .error .notText
  | some cs =>
    let stop := lo + Text.units text.toList
    .ok ({ a with
      text := String.ofList cs
      revision := a.revision + 1
      modified := true
      anchor := stop
      position := stop }, [.textChanged])

/-! ## Carets -/

/-- Moves the main caret. -/
def setCaret (a : TextArea) (anchor position : Nat) : TextArea × List Signal :=
  let moved := position ≠ a.position
  let turned := moved ∨ anchor ≠ a.anchor
  let b := { a with anchor, position }
  (if moved then b.showSelections else b,
    (if moved then [.caretMoved] else []) ++ if turned then [.selectionChanged] else [])

/-- Selects from one position to another; a position out of reach changes nothing. -/
def select (a : TextArea) (anchor position : Int) : TextArea × List Signal :=
  let inReach (p : Int) : Bool := 0 ≤ p && p ≤ a.length
  let (first, last) :=
    if inReach anchor then (anchor.toNat, anchor.toNat) else (a.anchor, a.position)
  a.setCaret first (if inReach position then position.toNat else last)

/-- Is the caret drawn as wide as a character? -/
def blockStyles : List String := ["block", "block-outline", "underline", "underline-thin"]

/-- Is the area's caret as wide as a character? -/
def hasBlockCaret (a : TextArea) : Bool := blockStyles.contains a.caretStyle

/-- Takes a caret style, given as any value. -/
def setCaretStyle (a : TextArea) (value : Json) : TextArea :=
  let style := Text.lower (Text.trim (value.orElse (.str "line")).text)
  { a with caretStyle := if style = "" then "line" else style }

/-- Puts a caret at an offset, unless there is one; tells whether it did. -/
def addCaret (a : TextArea) (offset : Int) : Bool × TextArea × List Signal :=
  let a := a.capture
  let position := min (a.toPosition (max 0 offset)).toNat a.length
  if (a.position :: a.carets).contains position then (false, a, [])
  else (true, { a with carets := a.carets ++ [position] }, [.caretsChanged])

/-- Removes the carets beside the main one. -/
def clearCarets (a : TextArea) : TextArea × List Signal :=
  if a.carets.isEmpty then (a, []) else ({ a with carets := [] }, [.caretsChanged])

/-! ## Files -/

/-- Takes another file path. -/
def setFilePath (a : TextArea) (filePath : Option String) : TextArea × List Signal :=
  let b := { a with filePath }
  (b, if b.languageId = a.languageId then [] else [.languageChanged])

end TextArea

/-- An area that works with files, and the signals that it has sent so far. -/
structure Filing where
  files : FileTree
  area : TextArea
  sent : List Signal := []

namespace Filing

/-- The area does something and sends its signals. -/
def act (f : TextArea → TextArea × List Signal) : Step Filing Unit :=
  modify fun s => { s with area := (f s.area).1, sent := s.sent ++ (f s.area).2 }

/-- A file becomes the file of the area, which is as the file is. -/
def settle (path : Path) : Step Filing Unit := do
  act fun a => ({ a with modified := false }, [])
  act (·.setFilePath (some path.toString))

/-- Shows the text of a file. -/
def opening (path : Path) : Step Filing Unit := do
  unless path.usable do throw .malformed
  let text ← Step.ofExcept ((← get).files.readText path)
  act TextArea.clearCarets
  act (·.setText text)
  settle path

/-- Writes the text to a file, which becomes the file of the area. Without a file given it is the
one that the area has already. -/
def storing (target : Option Path) : Step Filing Unit := do
  let s ← get
  let some path := target <|> (s.area.filePath.map Path.ofString) | throw .noTarget
  unless path.usable do throw .malformed
  let files ← Step.ofExcept (s.files.write path (Text.toBytes s.area.text))
  modify fun s => { s with files }
  settle path
  act fun a => (a, [.saved])

end Filing

namespace TextArea

/-- The area that shows the text of a file. -/
def load (a : TextArea) (files : FileTree) (path : Path) :
    Except Fault (TextArea × List Signal) :=
  match Filing.opening path { files, area := a } with
  | .ok _ s => .ok (s.area, s.sent)
  | .error fault _ => .error fault

/-- The files with the text of the area in one of them, and the area after that. -/
def save (a : TextArea) (files : FileTree) (target : Option Path) :
    Except Fault (FileTree × TextArea × List Signal) :=
  match Filing.storing target { files, area := a } with
  | .ok _ s => .ok (s.files, s.area, s.sent)
  | .error fault _ => .error fault

end TextArea

end Conceal
