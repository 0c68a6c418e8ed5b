/-!
Sets of code points as the ascending list of places where membership flips: a code point belongs to
the set when an odd number of flips lie at or before it. Look-up is by bisection.
-/

namespace Conceal.Unicode

/-- Bisects `[lo, hi)` for the first index at which `before` fails; `before` holds on an initial
segment of the array. -/
def bisect {α : Type} (before : α → Bool) (xs : Array α) : Nat → Nat → Nat → Nat
  | 0, lo, _ => lo
  | fuel + 1, lo, hi =>
    if lo < hi then
      let mid := (lo + hi) / 2
      match xs[mid]? with
      | some x =>
        if before x then bisect before xs fuel (mid + 1) hi else bisect before xs fuel lo mid
      | none => lo
    else lo

/-- How many leading entries of the array satisfy the condition. -/
def countUpTo {α : Type} (before : α → Bool) (xs : Array α) : Nat :=
  bisect before xs (xs.size.log2 + 1) 0 xs.size

/-- How many entries of an ascending array are at most `c`. -/
def countBelow (xs : Array Nat) (c : Nat) : Nat := countUpTo (fun x => x ≤ c) xs

/-- Does `c` belong to the set whose membership flips at the entries of `flips`? -/
def inToggles (flips : Array Nat) (c : Nat) : Bool := countBelow flips c % 2 == 1

end Conceal.Unicode
