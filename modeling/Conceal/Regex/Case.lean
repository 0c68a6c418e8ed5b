import Conceal.Unicode.Case

/-!
When two characters are one up to case. Both are put in lower case; a few lower-case letters that
have the same upper case, such as the two forms of sigma, count as one as well.
-/

namespace Conceal.Regex

/-- Lower-case letters that differ but have one upper case. -/
def caseTwins : List (Nat × List Nat) := [
  (0x69, [0x131]), (0x73, [0x17f]), (0xb5, [0x3bc]), (0x131, [0x69]), (0x17f, [0x73]),
  (0x345, [0x3b9, 0x1fbe]), (0x390, [0x1fd3]), (0x3b0, [0x1fe3]), (0x3b2, [0x3d0]),
  (0x3b5, [0x3f5]), (0x3b8, [0x3d1]), (0x3b9, [0x345, 0x1fbe]), (0x3ba, [0x3f0]), (0x3bc, [0xb5]),
  (0x3c0, [0x3d6]), (0x3c1, [0x3f1]), (0x3c2, [0x3c3]), (0x3c3, [0x3c2]), (0x3c6, [0x3d5]),
  (0x3d0, [0x3b2]), (0x3d1, [0x3b8]), (0x3d5, [0x3c6]), (0x3d6, [0x3c0]), (0x3f0, [0x3ba]),
  (0x3f1, [0x3c1]), (0x3f5, [0x3b5]), (0x432, [0x1c80]), (0x434, [0x1c81]), (0x43e, [0x1c82]),
  (0x441, [0x1c83]), (0x442, [0x1c84, 0x1c85]), (0x44a, [0x1c86]), (0x463, [0x1c87]),
  (0x1c80, [0x432]), (0x1c81, [0x434]), (0x1c82, [0x43e]), (0x1c83, [0x441]),
  (0x1c84, [0x442, 0x1c85]), (0x1c85, [0x442, 0x1c84]), (0x1c86, [0x44a]), (0x1c87, [0x463]),
  (0x1c88, [0xa64b]), (0x1e61, [0x1e9b]), (0x1e9b, [0x1e61]), (0x1fbe, [0x345, 0x3b9]),
  (0x1fd3, [0x390]), (0x1fe3, [0x3b0]), (0xa64b, [0x1c88]), (0xfb05, [0xfb06]), (0xfb06, [0xfb05])]

/-- A lower-case letter and all its twins. -/
def caseClass (c : Nat) : List Nat := c :: (caseTwins.lookup c).getD []

/-- Letters with a given lower case that are neither it nor its upper case. -/
def otherCapitals : List (Nat × Nat) := [
  (0x69, 0x130), (0x6b, 0x212a), (0xdf, 0x1e9e), (0xe5, 0x212b), (0x1c6, 0x1c5), (0x1c9, 0x1c8),
  (0x1cc, 0x1cb), (0x1f3, 0x1f2), (0x3b8, 0x3f4), (0x3c9, 0x2126), (0x1f80, 0x1f88),
  (0x1f81, 0x1f89), (0x1f82, 0x1f8a), (0x1f83, 0x1f8b), (0x1f84, 0x1f8c), (0x1f85, 0x1f8d),
  (0x1f86, 0x1f8e), (0x1f87, 0x1f8f), (0x1f90, 0x1f98), (0x1f91, 0x1f99), (0x1f92, 0x1f9a),
  (0x1f93, 0x1f9b), (0x1f94, 0x1f9c), (0x1f95, 0x1f9d), (0x1f96, 0x1f9e), (0x1f97, 0x1f9f),
  (0x1fa0, 0x1fa8), (0x1fa1, 0x1fa9), (0x1fa2, 0x1faa), (0x1fa3, 0x1fab), (0x1fa4, 0x1fac),
  (0x1fa5, 0x1fad), (0x1fa6, 0x1fae), (0x1fa7, 0x1faf), (0x1fb3, 0x1fbc), (0x1fc3, 0x1fcc),
  (0x1ff3, 0x1ffc)]

/-- All letters with a given lower case. -/
def withLower (c : Nat) : List Nat :=
  (c :: Unicode.toUpper c :: (otherCapitals.lookup c).toList).filter fun d => Unicode.toLower d == c

/-- The lower case of an ASCII letter; all else is kept. -/
def lowerAscii (c : Nat) : Nat := if 65 ≤ c ∧ c ≤ 90 then c + 32 else c

end Conceal.Regex
