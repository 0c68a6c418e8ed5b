import Conceal.Regex.Case
import Conceal.Unicode.Alnum
import Conceal.Unicode.Blank
import Conceal.Unicode.Decimal

/-!
Tests that a pattern makes on one character: the dot, a single character, and sets of characters,
ranges and classes. Characters are code points, since a pattern may name ones that no text holds.
-/

namespace Conceal.Regex

/-- The classes that an escape names. -/
inductive CharClass where
  | digit
  | blank
  | word
deriving DecidableEq, Repr

/-- How characters are read: whether case is ignored and whether classes and case are of ASCII. -/
structure Reading where
  ignoreCase : Bool := false
  ascii : Bool := false
deriving DecidableEq, Repr

/-- A part of a set. -/
inductive SetItem where
  | single (c : Nat)
  | range (lo hi : Nat)
  | ofClass (kind : CharClass) (negated : Bool)
deriving DecidableEq, Repr

/-- A test on one character. -/
inductive CharTest where
  | any
  | notLineFeed
  | literal (c : Nat) (negated : Bool)
  | set (items : List SetItem) (negated : Bool)
deriving DecidableEq, Repr

/-- Is the code point in a class? -/
def CharClass.holds (kind : CharClass) (ascii : Bool) (c : Nat) : Bool :=
  if ascii && c ≥ 128 then false
  else
    match kind with
    | .digit => Unicode.isDecimal c
    | .blank => if ascii then (9 ≤ c && c ≤ 13) || c == 32 else Unicode.isBlank c
    | .word => Unicode.isWord c

namespace Reading

/-- The lower case of a code point. -/
def lower (r : Reading) (c : Nat) : Nat := if r.ascii then lowerAscii c else Unicode.toLower c

/-- Is the code point `c` the character `literal`? -/
def sameChar (r : Reading) (literal c : Nat) : Bool :=
  if !r.ignoreCase then c == literal
  else if r.ascii then lowerAscii c == lowerAscii literal
  else if Unicode.hasCase literal then
    (caseClass (Unicode.toLower literal)).contains (Unicode.toLower c)
  else c == literal

end Reading

/-- Does a part of a set hold the lower-case code point `c`, when case is ignored? A single
character beyond U+FFFF is taken as it is written; a range that reaches there also holds what it
holds in upper case. -/
def SetItem.holdsFolded (ascii : Bool) (c : Nat) : SetItem → Bool
  | .ofClass kind negated => kind.holds ascii c != negated
  | .single d =>
    if ascii then lowerAscii d == c
    else if d > 0xffff then d == c
    else (caseClass (Unicode.toLower d)).contains c
  | .range lo hi =>
    if ascii then (lo ≤ c && c ≤ hi) || (97 ≤ c && c ≤ 122 && lo ≤ c - 32 && c - 32 ≤ hi)
    else
      ((caseClass c).any fun d => (withLower d).any fun e => lo ≤ e && e ≤ hi)
        || (hi > 0xffff && ((lo ≤ c && c ≤ hi)
          || (lo ≤ Unicode.toUpper c && Unicode.toUpper c ≤ hi)))

/-- Does a part of a set hold the code point `c`? -/
def SetItem.holds (ascii : Bool) (c : Nat) : SetItem → Bool
  | .ofClass kind negated => kind.holds ascii c != negated
  | .single d => d == c
  | .range lo hi => lo ≤ c && c ≤ hi

/-- Does the code point `c` pass the test? -/
def CharTest.passes (r : Reading) (c : Nat) : CharTest → Bool
  | .any => true
  | .notLineFeed => c != 10
  | .literal d negated => r.sameChar d c != negated
  | .set items negated =>
    let found :=
      if r.ignoreCase then items.any (SetItem.holdsFolded r.ascii (r.lower c))
      else items.any (SetItem.holds r.ascii c)
    found != negated

end Conceal.Regex
