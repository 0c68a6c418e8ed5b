import Conceal.Document
import Mathlib.Data.List.DropRight

/-!
Lines and offsets of a document. The line of an offset is the number of line feeds before it, and
its place there is how far it is from the last of them. Main statement: `positionAt_eq`.
-/

namespace Conceal

namespace Document

/-- The number of line feeds before an offset. -/
def lineAt (d : Document) (offset : Nat) : Nat := (d.text.toList.take offset).count '\n'

/-- The distance of an offset from the last line feed before it. -/
def characterAt (d : Document) (offset : Nat) : Nat :=
  ((d.text.toList.take offset).rtakeWhile (· ≠ '\n')).length

/-! ## Lines -/

/-- The lines are those that have numbers from zero on. -/
theorem getElem?_lines (d : Document) (n : Nat) : d.lines[n]? = d.line? n := by
  have hat : atSigned? d.lineStarts (n : Int) = d.lineStarts[n]? := by simp [atSigned?]
  by_cases h : n < d.lineCount
  · have hstart := List.getElem?_eq_getElem (show n < d.lineStarts.length from h)
    have hsome : ∃ text, d.line? n = some text := by
      simp only [line?, hat, hstart]
      exact ⟨_, rfl⟩
    obtain ⟨text, htext⟩ := hsome
    simp [lines, h, htext]
  · have hstart := List.getElem?_eq_none (show d.lineStarts.length ≤ n from Nat.le_of_not_lt h)
    simp only [line?, hat, hstart]
    simpa [lines] using h

@[simp] theorem length_lines (d : Document) : d.lines.length = d.lineCount := by simp [lines]

/-! ## Starts of lines -/

/-- Each later line starts after the break that ends the one before it. -/
theorem lt_of_mem_startsAfter {offset s : Nat} {cs : List Char} (h : s ∈ startsAfter offset cs) :
    offset < s := by
  induction cs generalizing offset with
  | nil => cases h
  | cons c rest ih =>
    simp only [startsAfter] at h
    split at h
    · rcases List.mem_cons.mp h with rfl | h
      · exact Nat.lt_succ_self offset
      · exact Nat.lt_of_succ_lt (ih h)
    · exact Nat.lt_of_succ_lt (ih h)

/-- As many lines start up to a place as there are line feeds before it. -/
private theorem length_startsUpTo (cs : List Char) (offset n : Nat) :
    ((startsAfter offset cs).takeWhile (· ≤ offset + n)).length = (cs.take n).count '\n' := by
  induction cs generalizing offset n with
  | nil => simp [startsAfter]
  | cons c rest ih =>
    cases n with
    | zero =>
      -- all lines start behind the place
      have hnil : (startsAfter offset (c :: rest)).takeWhile (· ≤ offset + 0) = [] := by
        rw [List.takeWhile_eq_nil_iff]
        intro hpos
        have := lt_of_mem_startsAfter (List.getElem_mem hpos)
        simpa using this
      rw [hnil]
      rfl
    | succ n =>
      have hoffset : offset + (n + 1) = offset + 1 + n := by omega
      rw [hoffset, List.take_succ_cons, List.count_cons, startsAfter]
      split
      next hc =>
        rw [List.takeWhile_cons_of_pos (by simp), List.length_cons, ih, hc]
        simp
      next hc => rw [ih]; simp [hc]

/-- The line that a line feed ends is followed by one that starts behind it. -/
private theorem getElem?_startsAfter {cs : List Char} {n : Nat} (h : cs[n]? = some '\n')
    (offset : Nat) :
    (startsAfter offset cs)[(cs.take n).count '\n']? = some (offset + n + 1) := by
  induction cs generalizing offset n with
  | nil => simp at h
  | cons c rest ih =>
    cases n with
    | zero =>
      obtain rfl : c = '\n' := by simpa using h
      simp [startsAfter]
    | succ n =>
      have hrest := ih (by simpa using h) (offset + 1)
      have hoffset : offset + (n + 1) + 1 = offset + 1 + n + 1 := by omega
      rw [hoffset, ← hrest, List.take_succ_cons, List.count_cons, startsAfter]
      split
      next hc => simp [hc]
      next hc => simp [hc]

/-- An offset is its place in the line behind the start of its line. -/
theorem start_add_characterAt (d : Document) {offset : Nat} (h : offset ≤ d.length) :
    d.lineStarts.getD (d.lineAt offset) 0 + d.characterAt offset = offset := by
  unfold lineAt characterAt lineStarts
  induction offset with
  | zero => simp
  | succ n ih =>
    have hn : n < d.text.toList.length := h
    have ih := ih (Nat.le_of_lt h)
    rw [List.take_add_one, List.getElem?_eq_getElem hn, Option.toList_some, List.count_append,
      List.rtakeWhile_concat]
    by_cases hc : d.text.toList[n] = '\n'
    · -- a line feed starts another line
      have hstart := getElem?_startsAfter (List.getElem?_eq_some_iff.mpr ⟨hn, hc⟩) 0
      simp [hc, List.getD, hstart]
    · simp [hc]
      simp at ih
      omega

/-- Every offset lies in a line of the document. -/
theorem lineAt_lt (d : Document) (offset : Nat) : d.lineAt offset < d.lineCount := by
  have hle := (List.takeWhile_prefix (fun s => decide (s ≤ 0 + offset))
    (l := startsAfter 0 d.text.toList)).length_le
  rw [length_startsUpTo] at hle
  exact Nat.lt_succ_of_le hle

/-- The position of an offset in the text. -/
theorem positionAt_eq (d : Document) {offset : Nat} (h : offset ≤ d.length) :
    d.positionAt offset = (d.lineAt offset, d.characterAt offset) := by
  have hclamp : clamp (offset : Int) d.length = offset := by simp [clamp]; omega
  have hline : countUpTo d.lineStarts offset - 1 = d.lineAt offset := by
    have hcount := length_startsUpTo d.text.toList 0 offset
    rw [Nat.zero_add] at hcount
    rw [countUpTo, lineStarts, List.takeWhile_cons_of_pos (by simp), List.length_cons, hcount]
    rfl
  have hstart := d.start_add_characterAt h
  simp only [positionAt, hclamp, hline, Prod.mk.injEq, true_and]
  omega

end Document

end Conceal
