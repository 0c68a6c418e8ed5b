import Conceal.Unicode.Blank
import Conceal.Unicode.Case

/-!
Plain text: trimming, splitting and case. Blanks are those of `Conceal.Unicode.isBlank`.
-/

namespace Conceal.Text

/-- Is the character blank? -/
def isBlankChar (c : Char) : Bool := Unicode.isBlank c.toNat

/-- Removes blanks from both ends of a list of characters. -/
def trimChars (cs : List Char) : List Char :=
  ((cs.dropWhile isBlankChar).reverse.dropWhile isBlankChar).reverse

/-- Removes blanks from both ends. -/
def trim (s : String) : String := String.ofList (trimChars s.toList)

/-- The text in lower case. -/
def lower (s : String) : String := Unicode.lowerText s

/-- Splits at every occurrence of one character; `n` separators give `n + 1` pieces. -/
def splitChars (separator : Char) : List Char → List (List Char)
  | [] => [[]]
  | c :: rest =>
    if c = separator then [] :: splitChars separator rest
    else
      match splitChars separator rest with
      | piece :: pieces => (c :: piece) :: pieces
      | [] => [[c]]

/-- Splits at every occurrence of one character. -/
def splitAt (separator : Char) (s : String) : List String :=
  (splitChars separator s.toList).map String.ofList

/-- The words of a text: the stretches between blanks. -/
def wordsFrom (current : List Char) : List Char → List String
  | [] => if current.isEmpty then [] else [String.ofList current.reverse]
  | c :: rest =>
    if isBlankChar c then
      if current.isEmpty then wordsFrom [] rest
      else String.ofList current.reverse :: wordsFrom [] rest
    else wordsFrom (c :: current) rest

/-- The words of a text: the stretches between blanks. -/
def words (s : String) : List String := wordsFrom [] s.toList

/-- What stands before and after the first occurrence of a character, if it occurs. -/
def cutAt? (separator : Char) (s : String) : Option (String × String) :=
  match s.toList.span (· != separator) with
  | (before, _ :: after) => some (String.ofList before, String.ofList after)
  | _ => none

/-- Does `text` begin with `start`? -/
def beginsWith (start text : List Char) : Bool := start.isPrefixOf text

/-- Does `part` occur in the text? -/
def occursIn (part : List Char) : List Char → Bool
  | [] => part.isEmpty
  | c :: rest => part.isPrefixOf (c :: rest) || occursIn part rest

/-- Even a text without characters has one part. -/
theorem splitChars_ne_nil (separator : Char) (cs : List Char) : splitChars separator cs ≠ [] := by
  cases cs with
  | nil => simp [splitChars]
  | cons c rest =>
    unfold splitChars
    split
    · simp
    · split <;> simp

/-- Joining the pieces with the separator gives back the text. -/
theorem intercalate_splitChars (separator : Char) (cs : List Char) :
    [separator].intercalate (splitChars separator cs) = cs := by
  induction cs with
  | nil => rfl
  | cons c rest ih =>
    rcases h : splitChars separator rest with _ | ⟨piece, pieces⟩
    · exact absurd h (splitChars_ne_nil separator rest)
    · rw [h] at ih
      unfold splitChars
      split
      · subst c
        rw [h, ← ih]
        rfl
      · rw [h, ← ih]
        cases pieces <;> simp [List.intercalate, List.intersperse]

end Conceal.Text
