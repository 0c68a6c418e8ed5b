/-!
Floating-point numbers as exact values: a sign, a whole mantissa and a power of two. Rounding and
comparison are done on these values, so that no step of them rounds twice.
-/

namespace Conceal.Number

/-- Why a value does not read as a number. -/
inductive ReadFault where
  /-- The text is not the notation of a number, or the number is not one. -/
  | malformed
  /-- The value is of a kind that never reads as a number. -/
  | wrongKind
  /-- The value is infinite. -/
  | unbounded
deriving DecidableEq, Repr

/-- What a 64-bit float stands for; `finite negative m q` is `±m · 2 ^ q`. -/
inductive Exact where
  | nan
  | infinite (negative : Bool)
  | finite (negative : Bool) (m : Nat) (q : Int)
deriving DecidableEq, Repr

namespace Exact

/-- Takes a float apart. -/
def ofFloat (x : Float) : Exact :=
  let bits : Nat := x.toBits.toNat
  let negative := bits / Nat.pow 2 63 == 1
  let exponent : Nat := bits / Nat.pow 2 52 % Nat.pow 2 11
  let fraction : Nat := bits % Nat.pow 2 52
  if exponent == 2047 then
    if fraction == 0 then .infinite negative else .nan
  else if exponent == 0 then .finite negative fraction (-1074)
  else .finite negative (fraction + Nat.pow 2 52) ((exponent : Int) - 1075)

/-- The numerator of `m · 2 ^ q` over `denominator q`. -/
def numerator (m : Nat) (q : Int) : Nat := m * Nat.pow 2 q.toNat

/-- A power of two that makes `m · 2 ^ q` a quotient of whole numbers. -/
def denominator (q : Int) : Nat := Nat.pow 2 (-q).toNat

/-- The quotient `num / den` rounded to the nearest whole number, a half to the even neighbour. -/
def roundHalfEven (num den : Nat) : Nat :=
  let low := num / den
  let twice := 2 * (num % den)
  if twice < den then low
  else if twice > den then low + 1
  else low + low % 2

/-- Applies a sign to a magnitude. -/
def signed (negative : Bool) (magnitude : Nat) : Int :=
  if negative then -(magnitude : Int) else magnitude

/-- The whole part: the fraction is dropped. -/
def truncate : Exact → Except ReadFault Int
  | .nan => .error .malformed
  | .infinite _ => .error .unbounded
  | .finite negative m q => .ok (signed negative (numerator m q / denominator q))

/-- The nearest whole number, a half going to the even neighbour. -/
def round : Exact → Except ReadFault Int
  | .nan => .error .malformed
  | .infinite _ => .error .unbounded
  | .finite negative m q => .ok (signed negative (roundHalfEven (numerator m q) (denominator q)))

/-- Is the value exactly this whole number? -/
def isInteger (x : Exact) (i : Int) : Bool :=
  match x with
  | .finite negative m q => signed negative (numerator m q) == i * denominator q
  | _ => false

/-- Is the value zero, of either sign? -/
def isZero : Exact → Bool
  | .finite _ m _ => m == 0
  | _ => false

/-- Do two values stand for the same number? Zeros of both signs do, and so do two values that are
not numbers. -/
def same : Exact → Exact → Bool
  | .nan, .nan => true
  | .infinite a, .infinite b => a == b
  | .finite a m q, .finite b n r =>
    signed a (numerator m q * denominator r) == signed b (numerator n r * denominator q)
  | _, _ => false

example : roundHalfEven 5 2 = 2 ∧ roundHalfEven 7 2 = 4 ∧ roundHalfEven 8 3 = 3 := by decide

end Exact

/-- The whole part of a float. -/
def truncateFloat (x : Float) : Except ReadFault Int := (Exact.ofFloat x).truncate

/-- A float rounded to a whole number, a half going to the even neighbour. -/
def roundFloat (x : Float) : Except ReadFault Int := (Exact.ofFloat x).round

end Conceal.Number
