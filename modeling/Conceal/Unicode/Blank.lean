/-!
Blank characters: those that trimming removes, that separate words, and that the blank class of a
pattern matches. The four information separators and the next-line sign are among them.
-/

namespace Conceal.Unicode

/-- Is the code point blank? -/
def isBlank (c : Nat) : Bool :=
  (9 ≤ c && c ≤ 13) || (28 ≤ c && c ≤ 32) || c == 0x85 || c == 0xa0 || c == 0x1680
    || (0x2000 ≤ c && c ≤ 0x200a) || c == 0x2028 || c == 0x2029 || c == 0x202f || c == 0x205f
    || c == 0x3000

/-- Every ASCII whitespace character is blank. -/
theorem isBlank_of_isWhitespace {c : Char} (h : c.isWhitespace = true) :
    isBlank c.toNat = true := by
  simp only [Char.isWhitespace, Bool.or_eq_true, decide_eq_true_eq] at h
  rcases h with ((h | h) | h) | h <;> subst h <;> decide

end Conceal.Unicode
