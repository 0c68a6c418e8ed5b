/-!
Line ends and bytes of text files: a carriage return, alone or before a line feed, reads as a line
feed; bytes that are not well-formed UTF-8 are refused, and a byte order mark is kept.
-/

namespace Conceal.Text

/-- Turns every carriage return, with the line feed after it if there is one, into a line feed. -/
def unifyLineEnds : List Char → List Char
  | [] => []
  | '\r' :: '\n' :: rest => '\n' :: unifyLineEnds rest
  | c :: rest => (if c = '\r' then '\n' else c) :: unifyLineEnds rest

/-- Reads the bytes of a text file; `none` when they are not UTF-8. -/
def ofBytes? (bytes : ByteArray) : Option String :=
  (String.fromUTF8? bytes).map fun s => String.ofList (unifyLineEnds s.toList)

/-- The bytes of a text. -/
def toBytes (s : String) : ByteArray := s.toUTF8

/-- Without carriage returns there is nothing to unify. -/
theorem unifyLineEnds_eq_self {cs : List Char} (h : '\r' ∉ cs) : unifyLineEnds cs = cs := by
  fun_induction unifyLineEnds cs with
  | case1 => rfl
  | case2 rest ih => simp at h
  | case3 c rest _ ih =>
    simp only [List.mem_cons, not_or] at h
    rw [ih h.2, if_neg (Ne.symm h.1)]

/-- A text without a carriage return is read as it was written. -/
theorem ofBytes?_toBytes {s : String} (h : '\r' ∉ s.toList) : ofBytes? (toBytes s) = some s := by
  have hread : String.fromUTF8? (toBytes s) = some s := dif_pos s.isValidUTF8
  rw [ofBytes?, hread, Option.map_some, unifyLineEnds_eq_self h, String.ofList_toList]

end Conceal.Text
