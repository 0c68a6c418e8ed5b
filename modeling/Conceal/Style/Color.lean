import Conceal.Fault
import Conceal.Number.Notation
import Conceal.Text.Basic

/-!
Colors as styles write them: `#` and hexadecimal digits, `rgb` and `rgba` with numbers. Components
lie between 0 and 255; numbers outside are moved to the nearer end. Every other text is left to the
host, which knows colors by name and by notations of its own; what it knows is a `Palette`.
-/

namespace Conceal

/-- A color with its opacity. -/
structure Color where
  red : Nat
  green : Nat
  blue : Nat
  alpha : Nat := 255
deriving DecidableEq, Repr, Inhabited

/-- The colors that the host knows by a text that is none of the notations read here. -/
abbrev Palette := String → Option Color

/-- A host that knows the names of a list, in letters of either case. -/
def Palette.ofNames (names : List (String × Color)) : Palette := fun text =>
  names.lookup (Text.lower text)

/-- A host that knows a few names. -/
def Palette.basic : Palette := .ofNames
  [("red", ⟨255, 0, 0, 255⟩), ("green", ⟨0, 128, 0, 255⟩), ("blue", ⟨0, 0, 255, 255⟩),
    ("black", ⟨0, 0, 0, 255⟩), ("white", ⟨255, 255, 255, 255⟩), ("transparent", ⟨0, 0, 0, 0⟩)]

namespace Color

/-- The value of a hexadecimal digit of either case. -/
def hexValue? (c : Char) : Option Nat :=
  if '0' ≤ c ∧ c ≤ '9' then some (c.toNat - 48)
  else if 'a' ≤ c ∧ c ≤ 'f' then some (c.toNat - 87)
  else if 'A' ≤ c ∧ c ≤ 'F' then some (c.toNat - 55)
  else none

/-- A color from the values of its hexadecimal digits: one or two for each component, the opacity
last if it is given. -/
def ofHexValues : List Nat → Option Color
  | [r, g, b] => some ⟨17 * r, 17 * g, 17 * b, 255⟩
  | [r, g, b, a] => some ⟨17 * r, 17 * g, 17 * b, 17 * a⟩
  | [r, r', g, g', b, b'] => some ⟨16 * r + r', 16 * g + g', 16 * b + b', 255⟩
  | [r, r', g, g', b, b', a, a'] => some ⟨16 * r + r', 16 * g + g', 16 * b + b', 16 * a + a'⟩
  | _ => none

/-- Moves a number into the range of a component. -/
def component (i : Int) : Nat := (max 0 (min 255 i)).toNat

/-- The component of a number that was made whole; `none` if it was no number. -/
def ofWhole : Except Number.ReadFault Int → Except Fault (Option Nat)
  | .ok i => .ok (some (component i))
  | .error .unbounded => .error .unbounded
  | .error _ => .ok none

/-- Reads a component, dropping its fraction; `none` for what is no number. -/
def readComponent (part : String) : Except Fault (Option Nat) :=
  match Number.readFloat part with
  | none => .ok none
  | some x => ofWhole (Number.truncateFloat x)

/-- Reads an opacity between 0 and 1, rounding to the nearest component. -/
def readOpacity (part : String) : Except Fault (Option Nat) :=
  match Number.readFloat part with
  | none => .ok none
  | some x => ofWhole (Number.roundFloat (x * 255))

/-- Reads components one after the other, up to the first that is no number. -/
def readComponents : List String → Except Fault (Option (List Nat))
  | [] => .ok (some [])
  | part :: rest => do
    match ← readComponent part with
    | none => return none
    | some n => return (← readComponents rest).map (n :: ·)

/-- A color from the parts between the brackets of `rgb` or `rgba`; parts after the fourth do not
count. -/
def ofParts (parts : List String) : Except Fault (Option Color) := do
  match ← readComponents (parts.take 3) with
  | some [r, g, b] =>
    match parts[3]? with
    | none => return some ⟨r, g, b, 255⟩
    | some part => return (← readOpacity part).map fun a => ⟨r, g, b, a⟩
  | _ => return none

/-- What follows on `rgb` or `rgba` and an opening bracket. -/
def afterName? : List Char → Option (List Char)
  | r :: g :: b :: rest =>
    if Text.lower (String.ofList [r, g, b]) = "rgb" then
      match rest with
      | '(' :: body => some body
      | a :: '(' :: body => if a = 'a' ∨ a = 'A' then some body else none
      | _ => none
    else none
  | _ => none

/-- What stands between the brackets of `rgb` or `rgba`. -/
def functionBody? (cs : List Char) : Option (List Char) :=
  match (afterName? cs).map List.reverse with
  | some (')' :: body) => if body.contains ')' then none else some body.reverse
  | _ => none

/-- The values of hexadecimal digits, if all characters are such digits. -/
def hexValues? (cs : List Char) : Option (List Nat) := cs.mapM hexValue?

/-- A color from a number sign and hexadecimal digits. -/
def ofHash? : List Char → Option Color
  | '#' :: digits => (hexValues? digits).bind ofHexValues
  | _ => none

/-- Reads a color. A text that is neither digits behind a number sign, three, four, six or eight of
them, nor a call of `rgb` or `rgba` is left to the host, blanks around it apart; where there is no
text the host is not asked. What is no color gives `none`; a component that is infinite fails. -/
def read (palette : Palette) (text : String) : Except Fault (Option Color) :=
  let s := Text.trim text
  match ofHash? s.toList with
  | some color => .ok (some color)
  | none =>
    match functionBody? s.toList with
    | some body => ofParts ((Text.splitAt ',' (String.ofList body)).map Text.trim)
    | none => .ok (if s = "" then none else palette s)

end Color

end Conceal
