import Conceal.Number.Exact
import Conceal.Unicode.Blank
import Conceal.Unicode.Decimal

/-!
Numbers as people write them: blanks around, a sign, decimal digits of any script, and single
underscores between digits. Whole numbers have at most 4300 digits; fractional ones may have a
point, an exponent, or be one of the words for infinity and for no number.
-/

namespace Conceal.Number

open Conceal.Unicode

/-- Blanks that may stand around a number: the information separators may not. -/
def isPadding (c : Nat) : Bool := isBlank c && !(28 ≤ c && c ≤ 31)

/-- Removes the padding from both ends. -/
def trimPadding (cs : List Nat) : List Nat :=
  ((cs.dropWhile isPadding).reverse.dropWhile isPadding).reverse

/-- Splits a leading sign off: whether it is a minus, and what follows. -/
def splitSign : List Nat → Bool × List Nat
  | 45 :: rest => (true, rest)
  | 43 :: rest => (false, rest)
  | cs => (false, cs)

/-- The digits at the front with single underscores between them, and what follows; `none` when an
underscore does not stand between two digits. `afterDigit` says that a digit came just before. -/
def takeDigits (afterDigit : Bool) : List Nat → Option (List Nat × List Nat)
  | [] => some ([], [])
  | c :: rest =>
    match decimalValue? c with
    | some v => (takeDigits true rest).map fun (ds, tail) => (v :: ds, tail)
    | none =>
      if c = 95 then
        match afterDigit, rest with
        | true, d :: _ => if isDecimal d then takeDigits false rest else none
        | _, _ => none
      else some ([], c :: rest)

/-- The number that a list of digits writes, most significant first. -/
def digitsValue (ds : List Nat) : Nat := ds.foldl (fun n d => 10 * n + d) 0

/-- How many digits a whole number may have. -/
def maxDigits : Nat := 4300

/-- Reads a whole number. -/
def readInteger (s : String) : Option Int :=
  let (negative, body) := splitSign (trimPadding (s.toList.map Char.toNat))
  match takeDigits false body with
  | some (ds, []) =>
    if ds.isEmpty || ds.length > maxDigits then none
    else some (Exact.signed negative (digitsValue ds))
  | _ => none

/-- The float nearest to `mantissa · 10 ^ exponent`. Exponents far outside the range of floats are
settled before the power is formed. -/
def nearestFloat (mantissa : Nat) (exponent : Int) : Float :=
  if mantissa == 0 then 0.0
  else
    let magnitude := (toString mantissa).length + exponent
    if magnitude > 400 then 1.0 / 0.0
    else if magnitude < -400 then 0.0
    else if exponent < 0 then Float.ofScientific mantissa true exponent.natAbs
    else Float.ofScientific (mantissa * Nat.pow 10 exponent.toNat) false 0

/-- ASCII letters in lower case, all else as it is. -/
def lowerAscii (c : Nat) : Nat := if 65 ≤ c ∧ c ≤ 90 then c + 32 else c

/-- The words for infinity and for no number, in letters of any case. -/
def readWord (cs : List Nat) : Option Float :=
  let word := String.ofList (cs.map fun c => Char.ofNat (lowerAscii c))
  if word = "inf" ∨ word = "infinity" then some (1.0 / 0.0)
  else if word = "nan" then some (0.0 / 0.0)
  else none

/-- Reads an exponent: nothing, or a letter e, a sign and digits. -/
def readExponent : List Nat → Option Int
  | [] => some 0
  | c :: rest =>
    if c = 101 ∨ c = 69 then
      let (negative, body) := splitSign rest
      match takeDigits false body with
      | some (ds, []) => if ds.isEmpty then none else some (Exact.signed negative (digitsValue ds))
      | _ => none
    else none

/-- Reads an unsigned number with an optional point and exponent. -/
def readMagnitude (cs : List Nat) : Option Float := do
  let (whole, afterWhole) ← takeDigits false cs
  let (fraction, afterFraction) ←
    match afterWhole with
    | 46 :: rest => takeDigits false rest
    | rest => some ([], rest)
  if whole.isEmpty && fraction.isEmpty then none
  else
    let exponent ← readExponent afterFraction
    some (nearestFloat (digitsValue (whole ++ fraction)) (exponent - fraction.length))

/-- Reads a floating-point number. -/
def readFloat (s : String) : Option Float :=
  let (negative, body) := splitSign (trimPadding (s.toList.map Char.toNat))
  match readWord body <|> readMagnitude body with
  | some x => some (if negative then -x else x)
  | none => none

example : readInteger " 1_0 " = some 10 ∧ readInteger "1__0" = none ∧ readInteger "+-1" = none := by
  decide +kernel

end Conceal.Number
