import Conceal.Document

/-!
The grid of cells that a text is drawn in, given as a list of UTF-16 units. Every unit takes one
cell; a line of the text is a line of the grid.
-/

namespace Conceal

/-- A rectangle of pixels. -/
structure Rect where
  x : Int
  y : Int
  width : Int
  height : Int
deriving DecidableEq, Repr, Inhabited

/-- Do two rectangles share an area? -/
def Rect.overlaps (a b : Rect) : Bool :=
  a.x < b.x + b.width && b.x < a.x + a.width && a.y < b.y + b.height && b.y < a.y + a.height

namespace Grid

/-- The width of a cell in pixels. -/
def cellWidth : Nat := 8

/-- The height of a cell in pixels. -/
def cellHeight : Nat := 16

/-- The unit of a line feed. -/
def lineFeed : Nat := 10

/-- The line and the column of a position. -/
def cell (us : List Nat) (position : Nat) : Nat × Nat :=
  let before := us.take position
  (before.count lineFeed, (before.reverse.takeWhile (· != lineFeed)).length)

/-- The lengths of the lines. -/
def lineLengths : List Nat → List Nat
  | [] => [0]
  | u :: rest =>
    if u = lineFeed then 0 :: lineLengths rest
    else
      match lineLengths rest with
      | n :: more => (n + 1) :: more
      | [] => [1]

/-- The caret's rectangle at a position: the left edge of its cell. -/
def rectAt (us : List Nat) (position : Nat) : Rect :=
  let (line, column) := cell us position
  ⟨(cellWidth * column : Nat), (cellHeight * line : Nat), 1, cellHeight⟩

/-- The position nearest to a point. -/
def positionAt (us : List Nat) (x y : Int) : Nat :=
  let lengths := lineLengths us
  let line := Document.clamp (y / cellHeight) (lengths.length - 1)
  let column := Document.clamp ((x + cellWidth / 2) / cellWidth) (lengths.getD line 0)
  (lengths.take line).foldr (fun length rest => length + 1 + rest) column

end Grid

end Conceal
