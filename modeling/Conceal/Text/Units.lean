/-!
Offsets in UTF-16 units. A code point beyond U+FFFF takes two units, a high one and a low one; any
other takes one.
-/

namespace Conceal.Text

/-- How many UTF-16 units a character takes. -/
def unitsOf (c : Char) : Nat := if c.toNat > 0xffff then 2 else 1

/-- How many UTF-16 units a text takes. -/
def units : List Char → Nat
  | [] => 0
  | c :: rest => unitsOf c + units rest

/-- The least number of characters whose units reach `target`, or all of them. -/
def charsForUnits : List Char → Nat → Nat
  | [], _ => 0
  | c :: rest, target => if target = 0 then 0 else charsForUnits rest (target - unitsOf c) + 1

/-- The units of a character. -/
def encodeChar (c : Char) : List Nat :=
  if c.toNat > 0xffff then
    [0xd800 + (c.toNat - 0x10000) / 0x400, 0xdc00 + (c.toNat - 0x10000) % 0x400]
  else [c.toNat]

/-- The units of a text. -/
def encodeUnits (cs : List Char) : List Nat := cs.flatMap encodeChar

/-- Is the unit the first half of a pair? -/
def isHigh (u : Nat) : Bool := 0xd800 ≤ u && u ≤ 0xdbff

/-- Is the unit the second half of a pair? -/
def isLow (u : Nat) : Bool := 0xdc00 ≤ u && u ≤ 0xdfff

/-- The text that units write; `none` where one half of a pair stands alone. -/
def decodeUnits? : List Nat → Option (List Char)
  | [] => some []
  | u :: rest =>
    if isHigh u then
      match rest with
      | v :: rest =>
        if isLow v then
          (decodeUnits? rest).map
            (Char.ofNat (0x10000 + (u - 0xd800) * 0x400 + (v - 0xdc00)) :: ·)
        else none
      | [] => none
    else if isLow u then none
    else (decodeUnits? rest).map (Char.ofNat u :: ·)

@[simp] theorem units_append (a b : List Char) : units (a ++ b) = units a + units b := by
  induction a with
  | nil => simp [units]
  | cons c rest ih => simp [units, ih, Nat.add_assoc]

/-- Every character takes a unit at least. -/
theorem length_le_units (cs : List Char) : cs.length ≤ units cs := by
  induction cs with
  | nil => simp
  | cons c rest ih =>
    have : 1 ≤ unitsOf c := by unfold unitsOf; split <;> omega
    simp only [List.length_cons, units]
    omega

/-- A text is encoded in as many units as are counted. -/
@[simp] theorem length_encodeUnits (cs : List Char) : (encodeUnits cs).length = units cs := by
  induction cs with
  | nil => rfl
  | cons c rest ih =>
    simp only [encodeUnits, List.flatMap_cons, List.length_append] at ih ⊢
    rw [ih, units]
    congr 1
    unfold encodeChar unitsOf
    split <;> rfl

end Conceal.Text
