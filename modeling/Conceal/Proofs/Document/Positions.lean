import Conceal.Proofs.Document.Lines
import Mathlib.Data.Prod.Lex

/-!
Offsets and positions of a document name the same places. The lines are the pieces of the text
between line feeds; the offset of a position and the position of an offset are inverse to each
other, and what lies outside the document is moved to its nearest place first. Main statement:
`positions_agree`.
-/

namespace Conceal.Document

/-! ## Starts and stops of lines -/

section starts

variable {cs : List Char} {offset s : Nat}

private theorem startsAfter_succ (offset : Nat) (cs : List Char) :
    startsAfter (offset + 1) cs = (startsAfter offset cs).map (· + 1) := by
  induction cs generalizing offset with
  | nil => rfl
  | cons c rest ih =>
    simp only [startsAfter]
    split
    · rw [List.map_cons, ih]
    · exact ih (offset + 1)

/-- There is one more line after each break. -/
theorem length_startsAfter (offset : Nat) (cs : List Char) :
    (startsAfter offset cs).length = cs.count '\n' := by
  induction cs generalizing offset with
  | nil => rfl
  | cons c rest ih =>
    simp only [startsAfter]
    split
    next hc => rw [List.length_cons, ih, hc, List.count_cons_self]
    next hc => rw [ih, List.count_cons_of_ne hc]

/-- No line starts after the end of the text. -/
private theorem le_of_mem_startsAfter (h : s ∈ startsAfter offset cs) : s ≤ offset + cs.length := by
  induction cs generalizing offset with
  | nil => cases h
  | cons c rest ih =>
    have hrest : s ∈ startsAfter (offset + 1) rest → s ≤ offset + (rest.length + 1) := fun h => by
      have := ih h
      omega
    simp only [startsAfter] at h
    split at h
    · rcases List.mem_cons.mp h with rfl | h
      · exact Nat.add_le_add_left (Nat.le_add_left 1 _) offset
      · exact hrest h
    · exact hrest h

theorem pairwise_startsAfter (offset : Nat) (cs : List Char) :
    (startsAfter offset cs).Pairwise (· < ·) := by
  induction cs generalizing offset with
  | nil => exact List.Pairwise.nil
  | cons c rest ih =>
    simp only [startsAfter]
    split
    · exact List.pairwise_cons.mpr ⟨fun s hs => lt_of_mem_startsAfter hs, ih _⟩
    · exact ih _

/-- The number of items up to an offset tells between which two of them it lies. -/
private theorem countUpTo_eq_iff {starts : List Nat} (h : starts.Pairwise (· < ·)) {n start : Nat}
    (hstart : starts[n]? = some start) (offset : Nat) :
    countUpTo starts offset = n + 1 ↔
      start ≤ offset ∧ ∀ next, starts[n + 1]? = some next → offset < next := by
  unfold countUpTo
  induction starts generalizing n with
  | nil => cases hstart
  | cons first rest ih =>
    obtain ⟨hfirst, hrest⟩ := List.pairwise_cons.mp h
    cases n with
    | zero =>
      obtain rfl : first = start := by simpa using hstart
      by_cases hle : first ≤ offset
      · rw [List.takeWhile_cons_of_pos (by simpa using hle), List.length_cons]
        simp only [Nat.add_eq_right, List.length_eq_zero_iff, List.getElem?_cons_succ, hle,
          true_and]
        cases rest with
        | nil => simp
        | cons next rest => simp
      · rw [List.takeWhile_cons_of_neg (by simpa using hle)]
        simp [hle]
    | succ n =>
      rw [List.getElem?_cons_succ] at hstart
      rw [List.getElem?_cons_succ, ← ih hrest hstart]
      by_cases hle : first ≤ offset
      · rw [List.takeWhile_cons_of_pos (by simpa using hle), List.length_cons, Nat.add_left_inj]
      · -- no later item is up to the offset if the first one is not
        have hnone : rest.takeWhile (· ≤ offset) = [] := by
          rw [List.takeWhile_eq_nil_iff]
          intro hpos
          have hlater : first < rest[0] := hfirst _ (List.getElem_mem hpos)
          have hbehind : offset < rest[0] := by omega
          simpa using hbehind
        rw [List.takeWhile_cons_of_neg (by simpa using hle), hnone]
        simp

end starts

variable {d : Document} {n m start : Nat}

theorem pairwise_lineStarts (d : Document) : d.lineStarts.Pairwise (· < ·) :=
  List.pairwise_cons.mpr ⟨fun _ hs => lt_of_mem_startsAfter hs, pairwise_startsAfter _ _⟩

theorem lineCount_eq (d : Document) : d.lineCount = d.text.toList.count '\n' + 1 := by
  rw [lineCount, lineStarts, List.length_cons, length_startsAfter]

theorem start_le_length (h : d.lineStarts[n]? = some start) : start ≤ d.length := by
  rcases List.mem_cons.mp (List.mem_of_getElem? h) with rfl | hmem
  · exact Nat.zero_le _
  · simpa [length] using le_of_mem_startsAfter hmem

/-- Where the text of a line stops: at the line feed before the next line, or at the end. -/
def lineStop (d : Document) (n : Nat) : Nat := (d.lineStarts[n + 1]?).elim d.length (· - 1)

theorem start_lt_start {start' : Nat} (h : d.lineStarts[n]? = some start)
    (h' : d.lineStarts[m]? = some start') (hlt : n < m) : start < start' := by
  obtain ⟨hn, rfl⟩ := List.getElem?_eq_some_iff.mp h
  obtain ⟨hm, rfl⟩ := List.getElem?_eq_some_iff.mp h'
  exact List.pairwise_iff_getElem.mp d.pairwise_lineStarts n m hn hm hlt

/-- A line stops before each later one starts. -/
theorem lineStop_lt_start (h : d.lineStarts[m]? = some start) (hlt : n < m) :
    d.lineStop n < start := by
  obtain ⟨hm, -⟩ := List.getElem?_eq_some_iff.mp h
  have hn := List.getElem?_eq_getElem (show n < d.lineStarts.length by omega)
  have hnext := List.getElem?_eq_getElem (show n + 1 < d.lineStarts.length by omega)
  have hafter := start_lt_start hn hnext (Nat.lt_succ_self n)
  rw [lineStop, hnext, Option.elim_some]
  rcases Nat.lt_or_eq_of_le (Nat.succ_le_of_lt hlt) with hlater | rfl
  · have := start_lt_start hnext h hlater
    omega
  · rw [hnext] at h
    obtain rfl := Option.some.inj h
    omega

/-- A line ends no earlier than it starts. -/
theorem start_le_lineStop (h : d.lineStarts[n]? = some start) : start ≤ d.lineStop n := by
  rw [lineStop]
  cases hnext : d.lineStarts[n + 1]? with
  | none => exact start_le_length h
  | some next =>
    have := start_lt_start h hnext (Nat.lt_succ_self n)
    rw [Option.elim_some]
    omega

/-- No line ends after the text. -/
theorem lineStop_le_length (d : Document) (n : Nat) : d.lineStop n ≤ d.length := by
  rw [lineStop]
  cases hnext : d.lineStarts[n + 1]? with
  | none => exact Nat.le_refl _
  | some next =>
    have := start_le_length hnext
    rw [Option.elim_some]
    omega

/-- The text of a line is what lies between its start and its stop. -/
theorem line?_eq (h : d.lineStarts[n]? = some start) :
    d.line? n = some (String.ofList ((d.text.toList.take (d.lineStop n)).drop start)) := by
  have hat (k : Nat) : atSigned? d.lineStarts (k : Int) = d.lineStarts[k]? := by simp [atSigned?]
  have hstop : (if (n : Int) + 1 < d.lineStarts.length
      then (((atSigned? d.lineStarts ((n : Int) + 1)).getD 0 : Nat) : Int) - 1
      else (d.length : Int)) = (d.lineStop n : Int) := by
    have hnext := hat (n + 1)
    push_cast at hnext
    rw [hnext, lineStop]
    by_cases hlt : n + 1 < d.lineStarts.length
    · have hsome := List.getElem?_eq_getElem hlt
      have := start_lt_start h hsome (Nat.lt_succ_self n)
      rw [if_pos (by omega), hsome]
      simp only [Option.getD_some, Option.elim_some]
      omega
    · rw [if_neg (by omega), List.getElem?_eq_none (Nat.le_of_not_lt hlt)]
      rfl
  simp only [line?, hat, h, hstop, cut]
  rw [if_neg (by omega)]
  rfl

/-- The length of the text of a line. -/
theorem length_line (h : d.lineStarts[n]? = some start) :
    ((d.line? n).getD "").toList.length = d.lineStop n - start := by
  have hstop := d.lineStop_le_length n
  rw [length] at hstop
  rw [line?_eq h, Option.getD_some, String.toList_ofList, List.length_drop, List.length_take,
    Nat.min_eq_left hstop]

/-! ## Lines as pieces of the text -/

/-- A line one character further on stops one character further on. -/
private theorem elim_startsAfter_succ (cs : List Char) (n : Nat) :
    ((startsAfter 1 cs)[n]?).elim (cs.length + 1) (· - 1) =
      ((startsAfter 0 cs)[n]?).elim cs.length (· - 1) + 1 := by
  rw [startsAfter_succ, List.getElem?_map]
  cases hnext : (startsAfter 0 cs)[n]? with
  | none => rfl
  | some next =>
    have := lt_of_mem_startsAfter (List.mem_of_getElem? hnext)
    simp only [Option.map_some, Option.elim_some]
    omega

/-- The pieces of a text between its line feeds, by the starts of its lines. -/
private theorem getElem?_splitOn (cs : List Char) (n : Nat) :
    (cs.splitOn '\n')[n]? = ((0 :: startsAfter 0 cs)[n]?).map fun start =>
      (cs.take (((startsAfter 0 cs)[n]?).elim cs.length (· - 1))).drop start := by
  induction cs generalizing n with
  | nil => cases n <;> rfl
  | cons c rest ih =>
    have hstop := elim_startsAfter_succ rest
    rw [List.splitOn, List.splitOnP_cons_eq_if_modifyHead, ← List.splitOn]
    by_cases hc : c = '\n'
    · -- a line feed ends an empty piece, and the pieces of the rest follow
      rw [if_pos (by simp [hc]), startsAfter, if_pos hc]
      cases n with
      | zero => rfl
      | succ n =>
        have hstart : (0 :: (0 + 1) :: startsAfter (0 + 1) rest)[n + 1]? =
            ((0 :: startsAfter 0 rest)[n]?).map (· + 1) := by
          rw [startsAfter_succ, ← List.getElem?_map]
          rfl
        rw [List.getElem?_cons_succ, ih, hstart, Option.map_map, List.getElem?_cons_succ,
          List.length_cons, hstop]
        rfl
    · -- any other character is put before the first piece of the rest
      rw [if_neg (by simp [hc]), startsAfter, if_neg hc]
      cases n with
      | zero =>
        rw [List.getElem?_modifyHead_zero, ih, List.length_cons, hstop]
        rfl
      | succ n =>
        rw [List.getElem?_modifyHead_succ, ih, List.getElem?_cons_succ, List.getElem?_cons_succ,
          List.length_cons, hstop, startsAfter_succ, List.getElem?_map, Option.map_map]
        rfl

/-- The lines are the pieces of the text between its line feeds. -/
theorem lines_eq_splitOn (d : Document) :
    d.lines = (d.text.toList.splitOn '\n').map String.ofList := by
  refine List.ext_getElem? fun n => ?_
  rw [List.getElem?_map, getElem?_splitOn, ← lineStarts]
  cases hstart : d.lineStarts[n]? with
  | none =>
    rw [Option.map_none, Option.map_none, List.getElem?_eq_none_iff, length_lines]
    exact List.getElem?_eq_none_iff.mp hstart
  | some start =>
    rw [getElem?_lines]
    exact line?_eq hstart

example : ({ text := "a\n\nb\n" } : Document).lines = ["a", "", "b", ""] := by decide +kernel

/-- The lines put together again are the text. -/
theorem intercalate_lines (d : Document) : "\n".intercalate d.lines = d.text := by
  have hsame : String.toList ∘ String.ofList = id := funext fun _ => String.toList_ofList
  rw [← String.toList_inj, String.toList_intercalate, lines_eq_splitOn, List.map_map, hsame,
    List.map_id]
  exact List.intercalate_splitOn '\n'

/-! ## Positions -/

theorem clamp_of_le {i top : Nat} (h : i ≤ top) : clamp (i : Int) top = i := by
  simp only [clamp]
  omega

theorem clamp_le (i : Int) (top : Nat) : clamp i top ≤ top := by
  simp only [clamp]
  omega

/-- Clamping keeps the order. -/
theorem clamp_mono {i j : Int} (h : i ≤ j) (top : Nat) : clamp i top ≤ clamp j top := by
  simp only [clamp]
  omega

/-- An offset is no later than the end of a line exactly if the next line starts after it. -/
theorem le_lineStop_iff {offset : Nat} (h : offset ≤ d.length) (n : Nat) :
    offset ≤ d.lineStop n ↔ ∀ next, d.lineStarts[n + 1]? = some next → offset < next := by
  rw [lineStop]
  cases hnext : d.lineStarts[n + 1]? with
  | none => simpa using h
  | some next =>
    have hpos : 0 < next := start_lt_start (n := 0) rfl hnext (Nat.succ_pos n)
    simp only [Option.elim_some, Option.some.injEq, forall_eq']
    omega

/-- The position of an offset between the start and the stop of a line. -/
theorem positionAt_of_le {offset : Nat} (hstart : d.lineStarts[n]? = some start)
    (hle : start ≤ offset) (hstop : offset ≤ d.lineStop n) :
    d.positionAt offset = (n, offset - start) := by
  have hoffset := Nat.le_trans hstop (d.lineStop_le_length n)
  have hcount : countUpTo d.lineStarts offset = n + 1 :=
    (countUpTo_eq_iff d.pairwise_lineStarts hstart offset).mpr
      ⟨hle, (le_lineStop_iff hoffset n).mp hstop⟩
  simp only [positionAt, clamp_of_le hoffset, hcount, Nat.add_sub_cancel, List.getD, hstart,
    Option.getD_some]

/-- Every offset lies between the start and the stop of a line. -/
theorem exists_line {offset : Nat} (h : offset ≤ d.length) :
    ∃ n start, d.lineStarts[n]? = some start ∧ start ≤ offset ∧ offset ≤ d.lineStop n := by
  have hcount : countUpTo d.lineStarts offset =
      ((startsAfter 0 d.text.toList).takeWhile (· ≤ offset)).length + 1 := by
    rw [countUpTo, lineStarts, List.takeWhile_cons_of_pos (by simp), List.length_cons]
  have hlt := (List.takeWhile_prefix (fun s => decide (s ≤ offset))
    (l := startsAfter 0 d.text.toList)).length_le
  have hstart := List.getElem?_eq_getElem (l := d.lineStarts) (Nat.lt_succ_of_le hlt)
  obtain ⟨hle, hnext⟩ := (countUpTo_eq_iff d.pairwise_lineStarts hstart offset).mp hcount
  exact ⟨_, _, hstart, hle, (le_lineStop_iff h _).mpr hnext⟩

/-- The offset of a place in a line; the place is moved into the line first. -/
theorem offsetAt_eq {line : Int} (hline : clamp line (d.lineCount - 1) = n)
    (hstart : d.lineStarts[n]? = some start) (character : Int) :
    d.offsetAt line character = start + clamp character (d.lineStop n - start) := by
  rw [lineCount] at hline
  simp only [offsetAt, hline, length_line hstart, List.getD, hstart, Option.getD_some]

/-- A line that is clamped has a start. -/
theorem exists_start (d : Document) (line : Int) :
    ∃ start, d.lineStarts[clamp line (d.lineCount - 1)]? = some start := by
  have hpos : 0 < d.lineStarts.length := Nat.succ_pos _
  have hle := clamp_le line (d.lineCount - 1)
  rw [lineCount] at hle ⊢
  exact ⟨_, List.getElem?_eq_getElem (by omega)⟩

/-- The offset of a position lies in the text. -/
theorem offsetAt_le_length (d : Document) (line character : Int) :
    d.offsetAt line character ≤ d.length := by
  obtain ⟨start, hstart⟩ := d.exists_start line
  have hle := start_le_lineStop hstart
  have hstop := d.lineStop_le_length (clamp line (d.lineCount - 1))
  have hin := clamp_le character (d.lineStop (clamp line (d.lineCount - 1)) - start)
  rw [offsetAt_eq rfl hstart]
  omega

/-! ## Round trips -/

/-- The offset of the position of an offset is the offset. -/
theorem offsetAt_positionAt {offset : Nat} (h : offset ≤ d.length) :
    d.offsetAt (d.positionAt offset).1 (d.positionAt offset).2 = offset := by
  obtain ⟨n, start, hstart, hle, hstop⟩ := exists_line h
  have hline : clamp (n : Int) (d.lineCount - 1) = n := by
    obtain ⟨hn, -⟩ := List.getElem?_eq_some_iff.mp hstart
    refine clamp_of_le ?_
    rw [lineCount]
    omega
  have hcharacter : clamp ((offset - start : Nat) : Int) (d.lineStop n - start) = offset - start :=
    clamp_of_le (by omega)
  rw [positionAt_of_le hstart hle hstop, offsetAt_eq hline hstart, hcharacter]
  omega

/-- The position of the offset of a place in a line is that place. -/
theorem positionAt_offsetAt {line character : Nat} {text : String}
    (htext : d.lines[line]? = some text) (h : character ≤ text.length) :
    d.positionAt (d.offsetAt line character) = (line, character) := by
  obtain ⟨hline, -⟩ := List.getElem?_eq_some_iff.mp htext
  rw [length_lines] at hline
  have hstart := List.getElem?_eq_getElem (l := d.lineStarts) hline
  have hlength := length_line hstart
  rw [getElem?_lines] at htext
  rw [htext, Option.getD_some, String.length_toList] at hlength
  have hstop := start_le_lineStop hstart
  rw [offsetAt_eq (clamp_of_le (by omega)) hstart, clamp_of_le (by omega),
    positionAt_of_le hstart (by omega) (by omega), Nat.add_sub_cancel_left]

theorem positionAt_clamp (d : Document) (offset : Int) :
    d.positionAt offset = d.positionAt (clamp offset d.length) := by
  have htwice : clamp (clamp offset d.length : Int) d.length = clamp offset d.length :=
    clamp_of_le (clamp_le offset d.length)
  rw [positionAt, positionAt, htwice]

/-! ## Order -/

/-- Later offsets have later positions. -/
theorem positionAt_mono {offset offset' : Int} (h : offset ≤ offset') :
    toLex (d.positionAt offset) ≤ toLex (d.positionAt offset') := by
  rw [positionAt_clamp d offset, positionAt_clamp d offset']
  have hclamped : clamp offset d.length ≤ clamp offset' d.length := clamp_mono h d.length
  obtain ⟨n, start, hstart, hbegin, hstop⟩ := exists_line (clamp_le offset d.length)
  obtain ⟨n', start', hstart', hbegin', hstop'⟩ := exists_line (clamp_le offset' d.length)
  rw [positionAt_of_le hstart hbegin hstop, positionAt_of_le hstart' hbegin' hstop',
    Prod.Lex.toLex_le_toLex]
  rcases Nat.lt_trichotomy n n' with hlt | rfl | hgt
  · exact Or.inl hlt
  · rw [hstart] at hstart'
    obtain rfl := Option.some.inj hstart'
    exact Or.inr ⟨rfl, Nat.sub_le_sub_right hclamped start⟩
  · -- the earlier line stops before the later one starts
    have := lineStop_lt_start hstart hgt
    omega

/-- Later positions have later offsets, if their lines are moved into the document before they are
compared. -/
theorem offsetAt_mono {line character line' character' : Int}
    (h : toLex (clamp line (d.lineCount - 1), character) ≤
      toLex (clamp line' (d.lineCount - 1), character')) :
    d.offsetAt line character ≤ d.offsetAt line' character' := by
  obtain ⟨start, hstart⟩ := d.exists_start line
  obtain ⟨start', hstart'⟩ := d.exists_start line'
  rw [offsetAt_eq rfl hstart, offsetAt_eq rfl hstart']
  rcases Prod.Lex.toLex_le_toLex.mp h with hlt | ⟨heq, hle⟩
  · have hbegin := start_le_lineStop hstart
    have hafter : d.lineStop (clamp line (d.lineCount - 1)) < start' :=
      lineStop_lt_start hstart' hlt
    have hin := clamp_le character (d.lineStop (clamp line (d.lineCount - 1)) - start)
    omega
  · dsimp only at heq hle
    rw [← heq, hstart] at hstart'
    obtain rfl := Option.some.inj hstart'
    rw [← heq]
    exact Nat.add_le_add_left (clamp_mono hle _) start

/-- The lines of a document, joined by line feeds, are its text, and there is one more of them than
there are line feeds. The offset of the position of an offset is that offset, and the position of
the offset of a place in a line is that place. Other offsets have the positions of the nearest ones
in the text, and other positions have offsets in the text. Later offsets have later positions, and
later positions have later offsets, if their lines are moved into the document before they are
compared. -/
theorem positions_agree (d : Document) :
    "\n".intercalate d.lines = d.text ∧
      d.lines.length = d.lineCount ∧ d.lineCount = d.text.toList.count '\n' + 1 ∧
      (∀ offset : Nat, offset ≤ d.length →
        d.offsetAt (d.positionAt offset).1 (d.positionAt offset).2 = offset) ∧
      (∀ (line character : Nat) (text : String), d.lines[line]? = some text →
        character ≤ text.length → d.positionAt (d.offsetAt line character) = (line, character)) ∧
      (∀ offset : Int, d.positionAt offset = d.positionAt (clamp offset d.length)) ∧
      (∀ line character : Int, d.offsetAt line character ≤ d.length) ∧
      (∀ offset offset' : Int, offset ≤ offset' →
        toLex (d.positionAt offset) ≤ toLex (d.positionAt offset')) ∧
      ∀ line character line' character' : Int,
        toLex (clamp line (d.lineCount - 1), character) ≤
            toLex (clamp line' (d.lineCount - 1), character') →
          d.offsetAt line character ≤ d.offsetAt line' character' :=
  ⟨d.intercalate_lines, d.length_lines, d.lineCount_eq, fun _ => offsetAt_positionAt,
    fun _ _ _ => positionAt_offsetAt, d.positionAt_clamp, d.offsetAt_le_length,
    fun _ _ => positionAt_mono, fun _ _ _ _ => offsetAt_mono⟩

/-- A line before the first one is moved to it, and the place in the line is not. -/
theorem not_offsetAt_mono : ¬ ∀ (d : Document) (line character line' character' : Int),
    toLex (line, character) ≤ toLex (line', character') →
      d.offsetAt line character ≤ d.offsetAt line' character' := by
  intro hmono
  have hbefore : toLex ((-1 : Int), (5 : Int)) ≤ toLex (0, 0) :=
    Prod.Lex.toLex_le_toLex.mpr (Or.inl (by decide))
  have hle := hmono { text := "abcdef" } (-1) 5 0 0 hbefore
  revert hle
  decide +kernel

end Conceal.Document
