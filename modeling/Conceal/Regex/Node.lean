import Conceal.Regex.CharTest

/-!
Patterns as trees, with all flags already applied to the parts they govern.
-/

namespace Conceal.Regex

/-- Conditions on a place in the text that take up no character. -/
inductive Anchor where
  /-- Before the first character. -/
  | textStart
  /-- After the last character. -/
  | textEnd
  /-- After the last character, or before a line feed that is the last character. -/
  | textEndOrFinalLineFeed
  /-- Before the first character, or after a line feed. -/
  | lineStart
  /-- After the last character, or before a line feed. -/
  | lineEnd
  /-- Between a word character and one that is not. -/
  | wordBoundary (ascii : Bool)
  /-- Elsewhere. -/
  | notWordBoundary (ascii : Bool)
deriving DecidableEq, Repr

/-- Which number of repetitions is tried first, and whether others are tried at all. -/
inductive Greed where
  | greedy
  | lazy
  | possessive
deriving DecidableEq, Repr

/-- A pattern. -/
inductive Node where
  | empty
  | one (test : CharTest) (reading : Reading)
  | seq (first second : Node)
  | alt (first second : Node)
  /-- A capturing group. -/
  | group (index : Nat) (body : Node)
  /-- The text of an earlier group once more. -/
  | backReference (index : Nat) (reading : Reading)
  | anchor (a : Anchor)
  /-- What follows, or the `width` characters before, must match or must not match. -/
  | look (behind : Option Nat) (negated : Bool) (body : Node)
  /-- The first way to match the body is the only one. -/
  | atomic (body : Node)
  /-- One of two patterns, by whether a group has matched. -/
  | ifGroup (index : Nat) (yes no : Node)
  /-- At least `min` and at most `max` times the body; `none` sets no bound. -/
  | loop (greed : Greed) (min : Nat) (max : Option Nat) (body : Node)
deriving Repr

end Conceal.Regex
