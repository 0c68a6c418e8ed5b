import Conceal.Number.Exact

/-!
The shortest decimal text of a float: the fewest digits that read back as the same number, and of
those the nearest. Magnitudes from `10 ^ -4` up to `10 ^ 16` are written out; others have an
exponent of at least two digits.
-/

namespace Conceal.Number

/-- The least `e` at or above `start` with `num / den < 10 ^ e`, looked for in `fuel` steps. -/
def decimalExponent (num den : Nat) : Nat → Int → Int
  | 0, start => start
  | fuel + 1, start =>
    if num * Nat.pow 10 (-start).toNat < den * Nat.pow 10 start.toNat then start
    else decimalExponent num den fuel (start + 1)

/-- The values that round to `m · 2 ^ q`, as numerators over one denominator. The ends belong to
the interval when `closed`. -/
structure Interval where
  low : Nat
  value : Nat
  high : Nat
  den : Nat
  closed : Bool

/-- The rounding interval of `m · 2 ^ q`. Just above a power of two the gap below is half as wide
as the gap above. -/
def Interval.of (m : Nat) (q : Int) : Interval :=
  let below := if m == Nat.pow 2 52 && q > -1074 then 1 else 2
  let scale := Exact.numerator 1 (q - 2)
  ⟨(4 * m - below) * scale, 4 * m * scale, (4 * m + 2) * scale, Exact.denominator (q - 2),
    m % 2 == 0⟩

/-- Does `d · 10 ^ p` lie in the interval? -/
def Interval.contains (i : Interval) (d : Nat) (p : Int) : Bool :=
  let x := d * Nat.pow 10 p.toNat * i.den
  let scale := Nat.pow 10 (-p).toNat
  if i.closed then i.low * scale ≤ x && x ≤ i.high * scale
  else i.low * scale < x && x < i.high * scale

/-- Of the two neighbours of the value on the grid of `10 ^ p`, the nearer one inside the
interval; an exact tie goes to the even one. -/
def Interval.nearest? (i : Interval) (p : Int) : Option Nat :=
  let scaled := i.value * Nat.pow 10 (-p).toNat
  let grid := i.den * Nat.pow 10 p.toNat
  let d := scaled / grid
  let twice := 2 * (scaled % grid)
  let downFirst := twice < grid || (twice == grid && d % 2 == 0)
  let (first, second) := if downFirst then (d, d + 1) else (d + 1, d)
  if i.contains first p then some first
  else if i.contains second p then some second
  else none

/-- The first grid, from coarse to fine, on which a neighbour of the value reads back. -/
def Interval.shortest (i : Interval) (exponent : Int) : Nat → Int × Nat
  | 0 =>
    (exponent - 17,
      i.value * Nat.pow 10 (17 - exponent).toNat / (i.den * Nat.pow 10 (exponent - 17).toNat))
  | fuel + 1 =>
    let p := exponent - (17 - fuel : Nat)
    match i.nearest? p with
    | some d => (p, d)
    | none => i.shortest exponent fuel

/-- Drops trailing zeros, raising the exponent of ten instead. -/
def dropZeros : Nat → Int → Nat → Int × Nat
  | 0, p, d => (p, d)
  | fuel + 1, p, d => if d % 10 == 0 && d != 0 then dropZeros fuel (p + 1) (d / 10) else (p, d)

/-- The shortest digits of `m · 2 ^ q` for positive `m`, with the exponent of the last of them. -/
def shortestDigits (m : Nat) (q : Int) : Int × Nat :=
  let estimate := (Int.ofNat m.log2 + q) * 30103 / 100000 - 1
  let exponent := decimalExponent (Exact.numerator m q) (Exact.denominator q) 5 estimate
  let (p, d) := (Interval.of m q).shortest exponent 17
  dropZeros 20 p d

/-- An exponent of ten with its sign and at least two digits. -/
def exponentText (e : Int) : String :=
  let digits := toString e.natAbs
  (if e < 0 then "e-" else "e+") ++ (if digits.length < 2 then "0" ++ digits else digits)

/-- Lays out the digits `d` of the number `d · 10 ^ p`. -/
def layOut (p : Int) (d : Nat) : String :=
  let digits := (toString d).toList
  let point := p + digits.length
  if -3 ≤ point ∧ point ≤ 16 then
    if point ≤ 0 then "0." ++ String.ofList (List.replicate (-point).toNat '0' ++ digits)
    else
      let whole := digits.take point.toNat ++ List.replicate (point.toNat - digits.length) '0'
      let rest := digits.drop point.toNat
      String.ofList whole ++ "." ++ (if rest.isEmpty then "0" else String.ofList rest)
  else
    let rest := digits.drop 1
    String.ofList (digits.take 1) ++ (if rest.isEmpty then "" else "." ++ String.ofList rest)
      ++ exponentText (point - 1)

/-- The text of an exact value. -/
def Exact.text : Exact → String
  | .nan => "nan"
  | .infinite negative => if negative then "-inf" else "inf"
  | .finite negative m q =>
    let magnitude :=
      if m == 0 then "0.0"
      else
        let (p, d) := shortestDigits m q
        layOut p d
    if negative then "-" ++ magnitude else magnitude

/-- The shortest text that reads back as the float. -/
def floatText (x : Float) : String := (Exact.ofFloat x).text

end Conceal.Number
