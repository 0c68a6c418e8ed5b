/-!
Globs over whole texts: a star stands for any characters, a question mark for one, and brackets for
one of a set, or for one outside of it after an exclamation mark. A hyphen between two characters of
a set makes a range; a range that runs backwards is empty. A slash is a character like any other.
-/

namespace Conceal.Glob

/-- A part of a set: a character, or the hyphen of a range. -/
inductive SetMark where
  | char (c : Char)
  | to
deriving DecidableEq, Repr

/-- One piece of a glob. -/
inductive Piece where
  | star
  | anyChar
  | literal (c : Char)
  /-- One character of a set, or one outside of it. -/
  | oneOf (marks : List SetMark) (negated : Bool)
  /-- A set that holds nothing. -/
  | never
deriving DecidableEq, Repr

/-- Does a set hold a character? -/
def holds (c : Char) : List SetMark → Bool
  | .char lo :: .to :: .char hi :: rest => (lo ≤ c && c ≤ hi) || holds c rest
  | .char d :: rest => d == c || holds c rest
  | .to :: rest => holds c rest
  | [] => false

/-- Cuts the inside of brackets at the hyphens of ranges. `skip` characters come first that cannot
be such a hyphen; after one, two more characters cannot be. -/
def chunks (current : List Char) : Nat → List Char → List (List Char)
  | _, [] => [current.reverse]
  | skip + 1, c :: rest => chunks (c :: current) skip rest
  | 0, c :: rest =>
    if c = '-' then current.reverse :: chunks [] 2 rest else chunks (c :: current) 0 rest

/-- A hyphen at the end is no range: it goes back to the chunk before. -/
def closeChunks : List (List Char) → List (List Char)
  | [] => []
  | [c, []] => [c ++ ['-']]
  | c :: rest => c :: closeChunks rest

/-- Drops the ranges that run backwards, from the last one on. -/
def dropBackward : List (List Char) → List (List Char)
  | [] => []
  | c :: rest =>
    match dropBackward rest with
    | [] => [c]
    | d :: more =>
      match c.getLast?, d.head? with
      | some lo, some hi => if lo > hi then (c.dropLast ++ d.drop 1) :: more else c :: d :: more
      | _, _ => c :: d :: more

/-- The marks of a set from its chunks, which are joined by ranges. -/
def joinChunks : List (List Char) → List SetMark
  | [] => []
  | [c] => c.map .char
  | c :: rest => c.map .char ++ .to :: joinChunks rest

/-- The piece for what stands in brackets. -/
def bracket (inside : List Char) : Piece :=
  let lead := if inside.head? = some '!' then 2 else 1
  match joinChunks (dropBackward (closeChunks (chunks [] lead inside))) with
  | [] => .never
  | [.char '!'] => .anyChar
  | .char '!' :: marks => .oneOf marks true
  | marks => .oneOf marks false

/-- The inside of brackets and what follows the closing one, if there is one. A closing bracket
right at the start, or after an exclamation mark there, belongs to the set. -/
def splitBracket (cs : List Char) : Option (List Char × List Char) :=
  let lead := match cs with
    | '!' :: ']' :: _ => 2
    | '!' :: _ => 1
    | ']' :: _ => 1
    | _ => 0
  match (cs.drop lead).span (· != ']') with
  | (inside, _ :: rest) => some (cs.take lead ++ inside, rest)
  | _ => none

/-- Reads a glob. A bracket that is never closed stands for itself. -/
def parse : Nat → List Char → List Piece
  | 0, _ => []
  | _, [] => []
  | fuel + 1, c :: rest =>
    if c = '*' then .star :: parse fuel rest
    else if c = '?' then .anyChar :: parse fuel rest
    else if c = '[' then
      match splitBracket rest with
      | some (inside, tail) => bracket inside :: parse fuel tail
      | none => .literal '[' :: parse fuel rest
    else .literal c :: parse fuel rest

/-- The text and all that is left of it after dropping characters from the front. -/
def suffixes : List Char → List (List Char)
  | [] => [[]]
  | c :: rest => (c :: rest) :: suffixes rest

/-- Does one character fit a piece? -/
def Piece.fits (c : Char) : Piece → Bool
  | .star => true
  | .anyChar => true
  | .literal d => d == c
  | .oneOf marks negated => holds c marks != negated
  | .never => false

/-- Do the pieces cover the whole text? -/
def covers : List Piece → List Char → Bool
  | [], cs => cs.isEmpty
  | .star :: rest, cs => (suffixes cs).any (covers rest)
  | piece :: rest, c :: cs => piece.fits c && covers rest cs
  | _ :: _, [] => false

/-- Does the glob match the whole text? -/
def fits (glob text : String) : Bool :=
  covers (parse (glob.toList.length + 1) glob.toList) text.toList

end Conceal.Glob
