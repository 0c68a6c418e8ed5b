import Conceal.Json.Basic
import Conceal.Number.Notation

/-!
Reading values. The words for infinity and for no number are accepted besides the usual notation; a
text holds no raw control character; a whole number has at most 4300 digits.
-/

namespace Conceal.Json

/-- Why a text is not a value. -/
inductive ReadFault where
  | malformed
  | tooManyDigits
deriving DecidableEq, Repr

namespace Reader

/-- The blanks that may stand between the parts of a value. -/
def isSpace (c : Char) : Bool := c == ' ' || c == '\t' || c == '\n' || c == '\r'

/-- Drops blanks from the front. -/
def skipSpace (cs : List Char) : List Char := cs.dropWhile isSpace

/-- The value of a hexadecimal digit. -/
def hexValue? (c : Char) : Option Nat :=
  if '0' ≤ c ∧ c ≤ '9' then some (c.toNat - 48)
  else if 'a' ≤ c ∧ c ≤ 'f' then some (c.toNat - 87)
  else if 'A' ≤ c ∧ c ≤ 'F' then some (c.toNat - 55)
  else none

/-- The value of four hexadecimal digits at the front, and the rest. -/
def hex4 : List Char → Option (Nat × List Char)
  | a :: b :: c :: d :: rest => do
    let w ← hexValue? a
    let x ← hexValue? b
    let y ← hexValue? c
    let z ← hexValue? d
    some (((w * 16 + x) * 16 + y) * 16 + z, rest)
  | _ => none

/-- The character of an escape of one letter. -/
def shortEscape? : Char → Option Char
  | '"' => some '"'
  | '\\' => some '\\'
  | '/' => some '/'
  | 'b' => some '\x08'
  | 'f' => some '\x0c'
  | 'n' => some '\n'
  | 'r' => some '\r'
  | 't' => some '\t'
  | _ => none

/-- The character of a numeric escape whose digits come first; a high surrogate takes the low one
after it. A surrogate that stands alone is no character, so the replacement character stands for
it. -/
def numericEscape (cs : List Char) : Option (Char × List Char) := do
  let (first, rest) ← hex4 cs
  if 0xd800 ≤ first ∧ first < 0xdc00 then
    match rest with
    | '\\' :: 'u' :: more =>
      match hex4 more with
      | some (second, tail) =>
        if 0xdc00 ≤ second ∧ second < 0xe000 then
          return (Char.ofNat (0x10000 + (first - 0xd800) * 0x400 + (second - 0xdc00)), tail)
        else return ('\ufffd', rest)
      | none => return ('\ufffd', rest)
    | _ => return ('\ufffd', rest)
  else if 0xdc00 ≤ first ∧ first < 0xe000 then return ('\ufffd', rest)
  else return (Char.ofNat first, rest)

/-- The rest of a text up to its closing quote; `acc` holds what came before, last first. -/
def stringBody : Nat → List Char → List Char → Except ReadFault (String × List Char)
  | 0, _, _ => .error .malformed
  | fuel + 1, acc, cs =>
    match cs with
    | '"' :: rest => .ok (String.ofList acc.reverse, rest)
    | '\\' :: 'u' :: rest =>
      match numericEscape rest with
      | some (c, tail) => stringBody fuel (c :: acc) tail
      | none => .error .malformed
    | '\\' :: e :: rest =>
      match shortEscape? e with
      | some c => stringBody fuel (c :: acc) rest
      | none => .error .malformed
    | c :: rest =>
      if c.toNat < 32 ∨ c = '\\' then .error .malformed else stringBody fuel (c :: acc) rest
    | [] => .error .malformed

/-- ASCII digits at the front, as values, and the rest. -/
def digits (cs : List Char) : List Nat × List Char :=
  let (ds, rest) := cs.span Char.isDigit
  (ds.map fun c => c.toNat - 48, rest)

/-- The fraction after a whole number: digits after a point, or nothing. -/
def fraction : List Char → List Nat × List Char
  | '.' :: rest =>
    match digits rest with
    | ([], _) => ([], '.' :: rest)
    | found => found
  | cs => ([], cs)

/-- A sign in front of the digits of an exponent. -/
def exponentSign : List Char → Bool × List Char
  | '-' :: rest => (true, rest)
  | '+' :: rest => (false, rest)
  | cs => (false, cs)

/-- The exponent of a number, if one follows. -/
def exponent (cs : List Char) : Option Int × List Char :=
  match cs with
  | c :: rest =>
    if c = 'e' ∨ c = 'E' then
      let (negative, body) := exponentSign rest
      match digits body with
      | ([], _) => (none, cs)
      | (ds, tail) => (some (Number.Exact.signed negative (Number.digitsValue ds)), tail)
    else (none, cs)
  | [] => (none, cs)

/-- The whole part of a number: a zero, or digits that do not begin with one. -/
def wholePart : List Char → Option (List Nat × List Char)
  | '0' :: rest => some ([0], rest)
  | cs =>
    match digits cs with
    | ([], _) => none
    | found => some found

/-- An unsigned number and the sign it is given. -/
def number (negative : Bool) (cs : List Char) : Except ReadFault (Json × List Char) :=
  match wholePart cs with
  | none => .error .malformed
  | some (whole, afterWhole) =>
    let (places, afterPlaces) := fraction afterWhole
    let (power, rest) := exponent afterPlaces
    if places.isEmpty && power.isNone then
      if whole.length > Number.maxDigits then .error .tooManyDigits
      else .ok (.int (Number.Exact.signed negative (Number.digitsValue whole)), rest)
    else
      let digits := Number.digitsValue (whole ++ places)
      let x := Number.nearestFloat digits (power.getD 0 - places.length)
      .ok (.float (if negative then -x else x), rest)

mutual

/-- The value at the front of a text. -/
def value : Nat → List Char → Except ReadFault (Json × List Char)
  | 0, _ => .error .malformed
  | fuel + 1, cs =>
    match cs with
    | '"' :: rest => do
      let (s, tail) ← stringBody (rest.length + 1) [] rest
      return (.str s, tail)
    | '{' :: rest =>
      match skipSpace rest with
      | '}' :: tail => .ok (.obj [], tail)
      | tail => members fuel [] tail
    | '[' :: rest =>
      match skipSpace rest with
      | ']' :: tail => .ok (.arr [], tail)
      | tail => items fuel [] tail
    | 'n' :: 'u' :: 'l' :: 'l' :: rest => .ok (.null, rest)
    | 't' :: 'r' :: 'u' :: 'e' :: rest => .ok (.bool true, rest)
    | 'f' :: 'a' :: 'l' :: 's' :: 'e' :: rest => .ok (.bool false, rest)
    | 'N' :: 'a' :: 'N' :: rest => .ok (.float (0.0 / 0.0), rest)
    | 'I' :: 'n' :: 'f' :: 'i' :: 'n' :: 'i' :: 't' :: 'y' :: rest => .ok (.float (1.0 / 0.0), rest)
    | '-' :: 'I' :: 'n' :: 'f' :: 'i' :: 'n' :: 'i' :: 't' :: 'y' :: rest =>
      .ok (.float (-1.0 / 0.0), rest)
    | '-' :: rest => number true rest
    | _ => number false cs

/-- The items of a list from the first character of an item on; `acc` holds the earlier ones, last
first. -/
def items : Nat → List Json → List Char → Except ReadFault (Json × List Char)
  | 0, _, _ => .error .malformed
  | fuel + 1, acc, cs => do
    let (item, tail) ← value fuel cs
    match skipSpace tail with
    | ']' :: rest => return (.arr (item :: acc).reverse, rest)
    | ',' :: rest => items fuel (item :: acc) (skipSpace rest)
    | _ => throw .malformed

/-- The members of an object from the first quote of a key on; `acc` holds the earlier ones, last
first. -/
def members : Nat → List (String × Json) → List Char → Except ReadFault (Json × List Char)
  | 0, _, _ => .error .malformed
  | fuel + 1, acc, cs =>
    match cs with
    | '"' :: afterQuote => do
      let (key, afterKey) ← stringBody (afterQuote.length + 1) [] afterQuote
      match skipSpace afterKey with
      | ':' :: afterColon =>
        let (item, tail) ← value fuel (skipSpace afterColon)
        match skipSpace tail with
        | '}' :: rest => return (ofMembers ((key, item) :: acc).reverse, rest)
        | ',' :: rest => members fuel ((key, item) :: acc) (skipSpace rest)
        | _ => throw .malformed
      | _ => throw .malformed
    | _ => .error .malformed

end

end Reader

/-- Reads a text that holds one value. -/
def parse (s : String) : Except ReadFault Json := do
  let cs := s.toList
  let (found, rest) ← Reader.value (2 * cs.length + 2) (Reader.skipSpace cs)
  if (Reader.skipSpace rest).isEmpty then return found else throw .malformed

end Conceal.Json
