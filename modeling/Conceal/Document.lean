/-!
Documents: a text in lines, with what is known about its file. Lines end at line feeds only, and
after a final line feed there is one more line, which is empty. Offsets count characters.
-/

namespace Conceal

/-- One version of an editor's document. -/
structure Document where
  text : String := ""
  languageId : String := "plaintext"
  filePath : Option String := none
  revision : Int := 0
  dirty : Bool := false
deriving DecidableEq, Repr, Inhabited

namespace Document

/-- The places right after the line feeds of `cs`, where `cs` itself begins at `offset`. -/
def startsAfter (offset : Nat) : List Char → List Nat
  | [] => []
  | c :: rest =>
    if c = '\n' then (offset + 1) :: startsAfter (offset + 1) rest
    else startsAfter (offset + 1) rest

/-- Where the lines begin. -/
def lineStarts (d : Document) : List Nat := 0 :: startsAfter 0 d.text.toList

/-- The number of lines. -/
def lineCount (d : Document) : Nat := d.lineStarts.length

/-- The number of characters. -/
def length (d : Document) : Nat := d.text.toList.length

/-- The item at an index; a negative index counts from the end. -/
def atSigned? (xs : List Nat) (i : Int) : Option Nat :=
  if 0 ≤ i then xs[i.toNat]?
  else if xs.length + i < 0 then none
  else xs[(xs.length + i).toNat]?

/-- The characters from `start` up to `stop`; a negative `stop` counts from the end. -/
def cut (cs : List Char) (start : Nat) (stop : Int) : String :=
  let stop := if stop < 0 then cs.length + stop else stop
  String.ofList ((cs.take stop.toNat).drop start)

/-- The text of a line without its line feed. A negative number counts from the end, and then `-1`
gives the last line without its last character. -/
def line? (d : Document) (n : Int) : Option String :=
  let starts := d.lineStarts
  match atSigned? starts n with
  | none => none
  | some start =>
    let stop : Int :=
      if n + 1 < starts.length then ((atSigned? starts (n + 1)).getD 0 : Int) - 1 else d.length
    some (cut d.text.toList start stop)

/-- All lines. -/
def lines (d : Document) : List String :=
  (List.range d.lineCount).map fun n : Nat => (d.line? (n : Int)).getD ""

/-- Moves a number into `[0, top]`. -/
def clamp (i : Int) (top : Nat) : Nat := (max 0 (min i top)).toNat

/-- How many items of an ascending list are at most `offset`. -/
def countUpTo (starts : List Nat) (offset : Nat) : Nat := (starts.takeWhile (· ≤ offset)).length

/-- The line and the place in it of an offset. -/
def positionAt (d : Document) (offset : Int) : Nat × Nat :=
  let starts := d.lineStarts
  let offset := clamp offset d.length
  let line := countUpTo starts offset - 1
  (line, offset - starts.getD line 0)

/-- The offset of a place in a line. -/
def offsetAt (d : Document) (line character : Int) : Nat :=
  let starts := d.lineStarts
  let line := clamp line (starts.length - 1)
  starts.getD line 0 + clamp character ((d.line? line).getD "").toList.length

/-- The next version, with another text. -/
def withText (d : Document) (text : String) (dirty : Bool := true) : Document :=
  { d with text, revision := d.revision + 1, dirty }

end Document

end Conceal
