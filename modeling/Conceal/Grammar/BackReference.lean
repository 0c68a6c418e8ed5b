import Conceal.Number.Notation
import Conceal.Regex.Escape
import Conceal.Regex.Match

/-!
References in the end pattern of a block to the groups of the pattern that opened it: a backslash
and a number, in decimal digits of any script.
-/

namespace Conceal.Grammar

/-- The values of the decimal digits at the front of a text. -/
def leadingDigits : List Char → List Nat
  | [] => []
  | c :: rest =>
    match Unicode.decimalValue? c.toNat with
    | some v => v :: leadingDigits rest
    | none => []

/-- Replaces every reference, `value` giving the text for the digits of one. `skip` counts the
characters that belong to the reference before them. -/
def replaceReferences {m : Type → Type} [Monad m] (value : List Nat → m (List Char)) :
    Nat → List Char → m (List Char)
  | _, [] => pure []
  | skip + 1, _ :: rest => replaceReferences value skip rest
  | 0, c :: rest =>
    let ds := leadingDigits rest
    if c = '\\' ∧ ds ≠ [] then do
      let text ← value ds
      return text ++ (← replaceReferences value ds.length rest)
    else do
      return c :: (← replaceReferences value 0 rest)

/-- The end pattern with a plain letter for every reference, to see whether it is one at all. -/
def withoutReferences (source : String) : String :=
  String.ofList (replaceReferences (m := Id) (fun _ => ['x']) 0 source.toList)

end Conceal.Grammar
