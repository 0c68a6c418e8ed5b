/-!
Text made safe for a pattern: characters that mean something in a pattern get a backslash, so that
the result matches exactly the text.
-/

namespace Conceal.Regex

/-- The characters that are escaped. -/
def specialChars : List Char :=
  ['(', ')', '[', ']', '\x7b', '\x7d', '?', '*', '+', '-', '|', '^', '$', '\\', '.', '&', '~', '#',
    ' ', '\t', '\n', '\r', '\x0b', '\x0c']

/-- The pattern that matches exactly the given text. -/
def escape : List Char → List Char
  | [] => []
  | c :: rest => if specialChars.contains c then '\\' :: c :: escape rest else c :: escape rest

theorem escape_append (a b : List Char) : escape (a ++ b) = escape a ++ escape b := by
  induction a with
  | nil => rfl
  | cons c rest ih =>
    simp only [List.cons_append, escape, ih]
    split <;> rfl

end Conceal.Regex
