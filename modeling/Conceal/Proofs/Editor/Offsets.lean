import Mathlib.Order.Bounds.Basic
import Conceal.Editor.Painting
import Conceal.Editor.Pointer
import Conceal.Proofs.Editor.Face
import Conceal.Proofs.Editor.Files

/-!
Offsets in characters and positions in units. An area asks its last snapshot whether its text has
pairs, and counts only if it has. As long as a revision stands for one text, whatever else happens,
that snapshot is of the text that there is, so both ways of finding a position or an offset agree
with counting. Main statement: `offsets_agree`.
-/

namespace Conceal

/-! ## Units before an offset -/

namespace Text

variable {cs : List Char} {i j p q : Nat}

/-- A character takes one unit at least. -/
theorem unitsOf_pos (c : Char) : 0 < unitsOf c := by
  unfold unitsOf
  split <;> decide

theorem units_take_le (cs : List Char) (i : Nat) : units (cs.take i) ≤ units cs := by
  have hsplit := congrArg units (List.take_append_drop i cs)
  rw [units_append] at hsplit
  omega

/-- Every character more takes a unit at least. -/
private theorem units_take_lt (hij : i < j) (hj : j ≤ cs.length) :
    units (cs.take i) < units (cs.take j) := by
  induction cs generalizing i j with
  | nil =>
    rw [List.length_nil] at hj
    omega
  | cons c rest ih =>
    obtain ⟨j, rfl⟩ : ∃ k, j = k + 1 := ⟨j - 1, by omega⟩
    rw [List.take_succ_cons, units]
    have hc := unitsOf_pos c
    cases i with
    | zero =>
      rw [List.take_zero, units]
      omega
    | succ i =>
      rw [List.take_succ_cons, units]
      have := ih (Nat.lt_of_succ_lt_succ hij) (Nat.le_of_succ_le_succ hj)
      omega

/-- The least number of characters with so many units is what it is said to be. -/
theorem isLeast_charsForUnits (h : p ≤ units cs) :
    IsLeast {i | p ≤ units (cs.take i)} (charsForUnits cs p) := by
  induction cs generalizing p with
  | nil => exact ⟨by simpa [charsForUnits] using h, fun i _ => Nat.zero_le i⟩
  | cons c rest ih =>
    rw [charsForUnits]
    split
    next hp =>
      rw [hp]
      exact ⟨Nat.zero_le _, fun i _ => Nat.zero_le i⟩
    next hp =>
      have hrest : p - unitsOf c ≤ units rest := by
        rw [units] at h
        omega
      obtain ⟨hreach, hleast⟩ := ih hrest
      constructor
      · simp only [Set.mem_ofPred_eq, List.take_succ_cons, units] at hreach ⊢
        omega
      · intro i hi
        simp only [Set.mem_ofPred_eq] at hi
        cases i with
        | zero =>
          rw [List.take_zero, units] at hi
          omega
        | succ i =>
          rw [List.take_succ_cons, units] at hi
          have hle := hleast (show p - unitsOf c ≤ units (rest.take i) by omega)
          omega

/-- The characters before an offset are the least with so many units. -/
theorem charsForUnits_units_take (hi : i ≤ cs.length) :
    charsForUnits cs (units (cs.take i)) = i := by
  refine (isLeast_charsForUnits (units_take_le cs i)).unique ⟨le_refl (units (cs.take i)), ?_⟩
  intro j hj
  by_contra hlt
  have := units_take_lt (Nat.lt_of_not_le hlt) hi
  simp only [Set.mem_ofPred_eq] at hj
  omega

private theorem charsForUnits_zero (cs : List Char) : charsForUnits cs 0 = 0 := by
  cases cs with
  | nil => rfl
  | cons c rest => rw [charsForUnits, if_pos rfl]

/-- One unit behind the start of a character is no place before its end. -/
private theorem charsForUnits_succ (before after : List Char) (c : Char) :
    charsForUnits (before ++ c :: after) (units before + 1) = before.length + 1 := by
  induction before with
  | nil =>
    have hc := unitsOf_pos c
    rw [List.nil_append, units, Nat.zero_add, charsForUnits, if_neg Nat.one_ne_zero,
      Nat.sub_eq_zero_of_le hc, charsForUnits_zero]
    rfl
  | cons d rest ih =>
    have hd := unitsOf_pos d
    have hrest : units (d :: rest) + 1 - unitsOf d = units rest + 1 := by
      rw [units]
      omega
    rw [List.cons_append, charsForUnits, if_neg (Nat.succ_ne_zero _), hrest, ih, List.length_cons]

/-- More units hold at least as many characters. -/
theorem charsForUnits_mono (cs : List Char) (h : p ≤ q) :
    charsForUnits cs p ≤ charsForUnits cs q := by
  induction cs generalizing p q with
  | nil => exact Nat.le_refl _
  | cons c rest ih =>
    rw [charsForUnits, charsForUnits]
    by_cases hp : p = 0
    · rw [if_pos hp]
      exact Nat.zero_le _
    · rw [if_neg hp, if_neg (by omega)]
      exact Nat.add_le_add_right (ih (Nat.sub_le_sub_right h _)) 1

/-- A text without pairs has as many units as characters. -/
theorem units_eq_length (h : cs.any (fun c => unitsOf c != 1) = false) : units cs = cs.length := by
  induction cs with
  | nil => rfl
  | cons c rest ih =>
    rw [List.any_cons, Bool.or_eq_false_iff] at h
    have hc : unitsOf c = 1 := by simpa using h.1
    rw [units, ih h.2, hc, List.length_cons, Nat.add_comm]

/-- Without surrogate pairs a unit is a character, so that the short path is exact. -/
theorem units_take_of_no_pairs (h : cs.any (fun c => unitsOf c != 1) = false)
    (hi : i ≤ cs.length) : units (cs.take i) = i := by
  have htake : (cs.take i).any (fun c => unitsOf c != 1) = false := by
    rw [List.any_eq_false] at h ⊢
    exact fun c hc => h c (List.mem_of_mem_take hc)
  rw [units_eq_length htake, List.length_take_of_le hi]

end Text

/-! ## What happens to an area -/

/-- What can happen to an area, but for the drawing of layers: the host changes what it keeps, the
text and its revision among it, or the area does something. -/
inductive TextArea.Happens : TextArea → TextArea → Prop
  | host (a : TextArea) (text : String) (revision : Nat) (modified readOnly : Bool)
      (anchor position : Nat) (carets : List Nat) :
      Happens a { a with text, revision, modified, readOnly, anchor, position, carets }
  | setText (a : TextArea) (text : String) : Happens a (a.setText text).1
  | insert {a b : TextArea} {text : String} {signals : List Signal}
      (h : a.insert text = .ok (b, signals)) : Happens a b
  | select (a : TextArea) (anchor position : Int) : Happens a (a.select anchor position).1
  | showSelections (a : TextArea) : Happens a a.showSelections
  | capture (a : TextArea) : Happens a a.capture
  | addCaret (a : TextArea) (offset : Int) : Happens a (a.addCaret offset).2.1
  | clearCarets (a : TextArea) : Happens a a.clearCarets.1
  | setCaretStyle (a : TextArea) (value : Json) : Happens a (a.setCaretStyle value)
  | setFilePath (a : TextArea) (filePath : Option String) : Happens a (a.setFilePath filePath).1
  | load {a b : TextArea} {files : FileTree} {path : Path} {signals : List Signal}
      (h : a.load files path = .ok (b, signals)) : Happens a b
  | save {a b : TextArea} {files written : FileTree} {target : Option Path} {signals : List Signal}
      (h : a.save files target = .ok (written, b, signals)) : Happens a b
  | press (a : TextArea) (x y : Int) (main extra : Bool) : Happens a (a.press x y main extra).2.1
  | escape (a : TextArea) : Happens a a.escape.2.1
  | point (a : TextArea) (layers : List Layer) (x y : Int) : Happens a (a.point layers x y).2
  | paint (a : TextArea) (layers : List Layer) (visible : Rect) :
      Happens a (a.paint layers visible).2

/-- The areas that are reached when revision `n` of the text is `textOf n`, on any host. -/
inductive TextArea.Reached (textOf : Nat → String) : TextArea → Prop
  | start {palette : Palette} (h : textOf 0 = "") : Reached textOf { palette }
  | happens {a b : TextArea} (ha : Reached textOf a) (h : a.Happens b)
      (htext : b.text = textOf b.revision) : Reached textOf b
  | showLayers {a : TextArea} (ha : Reached textOf a) (layers : List Layer) :
      Reached textOf (a.showLayers layers)

namespace TextArea

variable {a b : TextArea} {textOf : Nat → String}

/-- The last snapshot, the selections of the decorations and the colors of the host stay as they
are. -/
structure Keeps (a b : TextArea) : Prop where
  taken : b.taken = a.taken
  highlights : b.highlights = a.highlights
  palette : b.palette = a.palette

theorem Keeps.refl (a : TextArea) : Keeps a a := ⟨rfl, rfl, rfl⟩

theorem Keeps.trans {c : TextArea} (h : Keeps a b) (h' : Keeps b c) : Keeps a c :=
  ⟨h'.taken.trans h.taken, h'.highlights.trans h.highlights, h'.palette.trans h.palette⟩

/-- Setting the caret keeps the text and what was taken over of it. -/
theorem keeps_setCaret (a : TextArea) (anchor position : Nat) :
    Keeps a (a.setCaret anchor position).1 := by
  unfold setCaret
  dsimp only
  split <;> exact ⟨rfl, rfl, rfl⟩

theorem keeps_setCaretStyle (a : TextArea) (value : Json) : Keeps a (a.setCaretStyle value) := by
  constructor <;> simp only [setCaretStyle]

theorem keeps_clearCarets (a : TextArea) : Keeps a a.clearCarets.1 := by
  unfold clearCarets
  split <;> exact ⟨rfl, rfl, rfl⟩

/-- Typing makes a new revision and leaves the copy of the old one in place. -/
theorem keeps_insert {text : String} {signals : List Signal}
    (h : a.insert text = .ok (b, signals)) : Keeps a b := by
  unfold insert at h
  dsimp only at h
  split at h
  · cases h
  · cases h
    exact ⟨rfl, rfl, rfl⟩

/-- Opening a file replaces the text and leaves the copy of the old one in place. -/
theorem keeps_load {files : FileTree} {path : Path} {signals : List Signal}
    (h : a.load files path = .ok (b, signals)) : Keeps a b := by
  unfold load at h
  split at h
  next hopen =>
    obtain ⟨text, -, -, rfl⟩ := Filing.opening_eq_ok_iff.mp hopen
    cases h
    exact ⟨rfl, rfl, rfl⟩
  · cases h

theorem keeps_save {files written : FileTree} {target : Option Path} {signals : List Signal}
    (h : a.save files target = .ok (written, b, signals)) : Keeps a b := by
  unfold save at h
  split at h
  next hstore =>
    obtain ⟨path, files, -, -, -, rfl⟩ := Filing.storing_eq_ok_iff.mp hstore
    cases h
    exact ⟨rfl, rfl, rfl⟩
  · cases h

/-- A second snapshot is the first one. -/
theorem capture_capture (a : TextArea) : a.capture.capture = a.capture := by
  have htaken : a.capture.taken = some a.snapshot := by
    obtain ⟨snapshots, h⟩ := a.capture_eq
    rw [h]
  have hholds : a.capture.holds a.snapshot = true := by
    rw [← snapshot_capture]
    exact a.capture.holds_snapshot
  rw [capture, htaken, Option.filter_some, if_pos hholds, if_pos Option.isSome_some]

/-- A caret more is put into the area with a snapshot. -/
theorem keeps_addCaret (a : TextArea) (offset : Int) :
    Keeps a.capture (a.addCaret offset).2.1 := by
  unfold addCaret
  dsimp only
  split <;> exact ⟨rfl, rfl, rfl⟩

/-- The mouse keeps the copy, or takes the text over on the way. -/
theorem keeps_press (a : TextArea) (x y : Int) (main extra : Bool) :
    Keeps a (a.press x y main extra).2.1 ∨ Keeps a.capture (a.press x y main extra).2.1 := by
  unfold press
  split
  · have hadd := keeps_addCaret a.capture (a.capture.toOffset (a.capture.positionAt x y))
    rw [capture_capture] at hadd
    exact Or.inr hadd
  · cases main with
    | false => exact Or.inl (keeps_setCaret a _ _)
    | true =>
      have hcleared := keeps_clearCarets a
      cases hclear : a.clearCarets with
      | mk c cleared =>
        rw [hclear] at hcleared
        simp only [if_true]
        exact Or.inl (hcleared.trans (keeps_setCaret c _ _))

theorem keeps_point (a : TextArea) (layers : List Layer) (x y : Int) :
    Keeps a.capture (a.point layers x y).2 := by
  unfold point
  dsimp only
  split <;> exact ⟨rfl, rfl, rfl⟩

/-- Painting keeps the copy, or takes the text over on the way. -/
theorem keeps_paint (a : TextArea) (layers : List Layer) (visible : Rect) :
    Keeps a (a.paint layers visible).2 ∨ Keeps a.capture (a.paint layers visible).2 := by
  unfold paint
  dsimp only
  split
  · exact Or.inl (Keeps.refl a)
  · exact Or.inr (Keeps.refl a.capture)

/-- Whatever happens, the last snapshot is the one from before, or the one that was asked for. -/
theorem Happens.keeps (h : a.Happens b) : Keeps a b ∨ Keeps a.capture b := by
  cases h with
  | host | setText | showSelections | setFilePath => exact Or.inl ⟨rfl, rfl, rfl⟩
  | setCaretStyle value => exact Or.inl (keeps_setCaretStyle a value)
  | insert h => exact Or.inl (keeps_insert h)
  | select anchor position => exact Or.inl (keeps_setCaret _ _ _)
  | capture => exact Or.inr (Keeps.refl _)
  | addCaret offset => exact Or.inr (keeps_addCaret a offset)
  | clearCarets | escape => exact Or.inl (keeps_clearCarets a)
  | load h => exact Or.inl (keeps_load h)
  | save h => exact Or.inl (keeps_save h)
  | press x y main extra => exact keeps_press a x y main extra
  | point layers x y => exact Or.inr (keeps_point a layers x y)
  | paint layers visible => exact keeps_paint a layers visible

/-- Nothing that a user does changes the highlights. -/
theorem Happens.highlights_eq (h : a.Happens b) : b.highlights = a.highlights := by
  rcases h.keeps with hkeeps | hkeeps
  · exact hkeeps.highlights
  · obtain ⟨snapshots, hcapture⟩ := a.capture_eq
    rw [hkeeps.highlights, hcapture]

/-- The colors that the host knows are the same at all times. -/
theorem Happens.palette_eq (h : a.Happens b) : b.palette = a.palette := by
  rcases h.keeps with hkeeps | hkeeps
  · exact hkeeps.palette
  · obtain ⟨snapshots, hcapture⟩ := a.capture_eq
    rw [hkeeps.palette, hcapture]

/-! ## The last snapshot -/

/-- The text is that of its revision, and the last snapshot is of a text that was that of its
revision. -/
structure Sound (textOf : Nat → String) (a : TextArea) : Prop where
  text : a.text = textOf a.revision
  taken : ∀ s ∈ a.taken, ∃ b : TextArea, b.text = textOf b.revision ∧
    s = Snapshot.ofDocument b.document

/-- A snapshot that holds is of the text that there is. -/
theorem Sound.snapshot_eq (h : a.Sound textOf) :
    a.snapshot = Snapshot.ofDocument a.document := by
  unfold snapshot
  cases hheld : a.taken.filter a.holds with
  | none => rfl
  | some s =>
    obtain ⟨htaken, hholds⟩ := Option.filter_eq_some_iff.mp hheld
    obtain ⟨b, htext, rfl⟩ := h.taken s htaken
    simp only [holds, Snapshot.ofDocument, document, Bool.and_eq_true, beq_iff_eq,
      Int.natCast_inj] at hholds
    obtain ⟨⟨hrevision, hpath⟩, hmodified⟩ := hholds
    -- a snapshot says its revision, and this says its text
    have hsame : b.text = a.text := by rw [htext, hrevision, h.text]
    rw [Option.getD_some]
    simp only [Snapshot.ofDocument, document, languageId, hsame, hrevision, hpath, hmodified]

/-- The copy that is taken belongs to the revision of the text. -/
theorem Sound.capture (h : a.Sound textOf) : a.capture.Sound textOf := by
  obtain ⟨snapshots, heq⟩ := a.capture_eq
  rw [heq]
  refine ⟨h.text, fun s hs => ⟨a, h.text, ?_⟩⟩
  rw [← Option.some.inj hs]
  exact h.snapshot_eq

/-- A step that keeps the copy keeps it sound, as long as a revision is one text. -/
theorem Sound.of_keeps (h : a.Sound textOf) (hkeeps : Keeps a b)
    (htext : b.text = textOf b.revision) : b.Sound textOf :=
  ⟨htext, by rw [hkeeps.taken]; exact h.taken⟩

/-- Every step of the host keeps the copy sound. -/
theorem Sound.happens (h : a.Sound textOf) (hhappens : a.Happens b)
    (htext : b.text = textOf b.revision) : b.Sound textOf := by
  rcases hhappens.keeps with hkeeps | hkeeps
  · exact h.of_keeps hkeeps htext
  · exact h.capture.of_keeps hkeeps htext

theorem Sound.showLayers (h : a.Sound textOf) (layers : List Layer) :
    (a.showLayers layers).Sound textOf := by
  obtain ⟨highlights, shown, heq | heq⟩ := a.showLayers_eq layers
  · rw [heq]
    exact ⟨h.text, h.taken⟩
  · rw [heq]
    exact ⟨h.capture.text, h.capture.taken⟩

/-- The copy is sound in every state that is reached. -/
theorem Reached.sound (h : a.Reached textOf) : a.Sound textOf := by
  induction h with
  | start h => exact ⟨h.symm, fun s hs => by cases hs⟩
  | happens _ hhappens htext ih => exact ih.happens hhappens htext
  | showLayers _ layers ih => exact ih.showLayers layers

/-! ## Offsets and positions -/

/-- Both ways of finding a position count the units before the offset. -/
theorem Sound.toPosition_eq (h : a.Sound textOf) {o : Nat} (ho : o ≤ a.text.toList.length) :
    a.toPosition o = Text.units (a.text.toList.take o) := by
  unfold toPosition
  rw [h.snapshot_eq]
  split
  · dsimp only
    rw [if_neg (by omega)]
    rfl
  next hpairs =>
    rw [Text.units_take_of_no_pairs (by simpa [Snapshot.ofDocument, document] using hpairs) ho]

/-- Both ways of finding an offset count the characters with so many units. -/
theorem Sound.toOffset_eq (h : a.Sound textOf) {p : Nat} (hp : p ≤ a.length) :
    a.toOffset p = Text.charsForUnits a.text.toList p := by
  unfold toOffset
  rw [h.snapshot_eq]
  split
  · rfl
  next hpairs =>
    have hnone : a.text.toList.any (fun c => Text.unitsOf c != 1) = false := by
      simpa [Snapshot.ofDocument, document] using hpairs
    have hp : p ≤ a.text.toList.length := by
      rw [← Text.units_eq_length hnone]
      exact hp
    have hchars := Text.charsForUnits_units_take hp
    rw [Text.units_take_of_no_pairs hnone hp] at hchars
    rw [hchars]

/-- A later position has no smaller offset. -/
theorem toOffset_mono (a : TextArea) {p q : Int} (hpq : p ≤ q) : a.toOffset p ≤ a.toOffset q := by
  unfold toOffset
  split
  · have := Text.charsForUnits_mono a.snapshot.document.text.toList (Int.toNat_le_toNat hpq)
    omega
  · exact hpq

/-- The offset of the position of an offset is the offset. -/
theorem Sound.toOffset_toPosition (h : a.Sound textOf) {o : Nat}
    (ho : o ≤ a.text.toList.length) : a.toOffset (a.toPosition o) = o := by
  rw [h.toPosition_eq ho, h.toOffset_eq (Text.units_take_le _ _), Text.charsForUnits_units_take ho]

/-- An offset at the end of the text or behind it has no position before the end. -/
theorem Sound.length_le_toPosition (h : a.Sound textOf) {offset : Int}
    (hoffset : a.text.toList.length ≤ offset) : a.length ≤ a.toPosition offset := by
  unfold toPosition
  rw [h.snapshot_eq]
  split
  · dsimp only
    rw [if_neg (by omega), List.take_of_length_le]
    · exact Int.le_refl _
    · exact Int.le_toNat (by omega) |>.mpr hoffset
  next hpairs =>
    rw [length, Text.units_eq_length (by simpa [Snapshot.ofDocument, document] using hpairs)]
    exact hoffset

/-- Where a caret is put: an offset outside of the text counts as the end that is nearer. -/
theorem Sound.position_eq (h : a.Sound textOf) (offset : Int) :
    min (a.toPosition (max 0 offset)).toNat a.length =
      Text.units (a.text.toList.take (max 0 (min offset a.text.toList.length)).toNat) := by
  by_cases hoffset : offset ≤ a.text.toList.length
  · -- a negative offset counts as the start
    obtain ⟨o, ho⟩ : ∃ o : Nat, max 0 offset = o := ⟨(max 0 offset).toNat, by omega⟩
    have hle := Text.units_take_le a.text.toList o
    rw [min_eq_left hoffset, ho, h.toPosition_eq (by omega), Int.toNat_natCast, Int.toNat_natCast]
    exact min_eq_left hle
  · have hlast : (max 0 (min offset a.text.toList.length)).toNat = a.text.toList.length := by omega
    have hend : a.length ≤ a.toPosition (max 0 offset) := h.length_le_toPosition (by omega)
    rw [hlast, List.take_length]
    exact min_eq_right (by omega)

/-- One caret more is one selection more, the last one. -/
theorem selections_concat (a : TextArea) (position : Nat) :
    selections { a with carets := a.carets ++ [position] } =
      a.selections ++ [(a.toOffset position, a.toOffset position)] := by
  simp only [selections, List.map_append, List.cons_append]
  rfl

/-- A caret is put into the area with a snapshot. -/
theorem addCaret_eq {offset : Int} {signals : List Signal}
    (h : a.addCaret offset = (true, b, signals)) :
    b = { a.capture with
      carets := a.capture.carets ++ [min (a.toPosition (max 0 offset)).toNat a.length] } := by
  have hposition : a.capture.toPosition (max 0 offset) = a.toPosition (max 0 offset) := by
    rw [toPosition, snapshot_capture, toPosition]
  have hlength : a.capture.length = a.length := by
    obtain ⟨snapshots, hcapture⟩ := a.capture_eq
    rw [hcapture]
    rfl
  unfold addCaret at h
  dsimp only at h
  rw [hposition, hlength] at h
  split at h
  · cases h
  · cases h
    rfl

/-- A caret that is put at an offset stands at the offset in the text that is nearest. -/
theorem Sound.selections_addCaret (h : a.Sound textOf) {offset : Int} {signals : List Signal}
    (hadded : a.addCaret offset = (true, b, signals)) :
    b.selections = a.selections ++
      [(max 0 (min offset a.text.toList.length), max 0 (min offset a.text.toList.length))] := by
  obtain ⟨c, hc⟩ : ∃ c : Nat, max 0 (min offset a.text.toList.length) = c :=
    ⟨(max 0 (min offset a.text.toList.length)).toNat, by omega⟩
  have hput := h.position_eq offset
  rw [hc, Int.toNat_natCast] at hput
  have hback := h.toOffset_toPosition (o := c) (by omega)
  rw [h.toPosition_eq (by omega), ← hput] at hback
  rw [addCaret_eq hadded, selections_concat, selections_capture, toOffset_capture, hback, hc]

/-- Wherever an area has been, as long as a revision of its text is one text, offsets and positions
agree. The position of an offset is the number of units before it, and the offset of that position
is the offset again. The offset of a position is the least with so many units before it. So one unit
behind the start of a character, which may be in the middle of a pair, counts as behind the
character, and greater positions have no smaller offsets. A caret that is put at an offset is the
last of the selections, at the offset itself or at the end of the text that is nearer. -/
theorem offsets_agree (h : a.Reached textOf) :
    (∀ o : Nat, o ≤ a.text.toList.length →
      a.toPosition o = (Text.encodeUnits (a.text.toList.take o)).length ∧
      a.toOffset (a.toPosition o) = o) ∧
    (∀ p : Nat, p ≤ (Text.encodeUnits a.text.toList).length → ∃ i : Nat, a.toOffset p = i ∧
      IsLeast {i | p ≤ (Text.encodeUnits (a.text.toList.take i)).length} i) ∧
    (∀ (before after : List Char) (c : Char), a.text.toList = before ++ c :: after →
      a.toOffset ((Text.encodeUnits before).length + 1) = before.length + 1) ∧
    (∀ p q : Int, p ≤ q → a.toOffset p ≤ a.toOffset q) ∧
    ∀ offset b signals, a.addCaret offset = (true, b, signals) →
      let c := max 0 (min offset a.text.toList.length)
      b.selections = a.selections ++ [(c, c)] := by
  have hsound := h.sound
  simp only [Text.length_encodeUnits]
  refine ⟨fun o ho => ⟨hsound.toPosition_eq ho, hsound.toOffset_toPosition ho⟩, ?_, ?_,
    fun _ _ => a.toOffset_mono, fun offset b signals hadded => hsound.selections_addCaret hadded⟩
  · intro p hp
    exact ⟨_, hsound.toOffset_eq hp, Text.isLeast_charsForUnits hp⟩
  · intro before after c htext
    have hc := Text.unitsOf_pos c
    have hinside : Text.units before + 1 ≤ a.length := by
      rw [length, htext, Text.units_append, Text.units]
      omega
    have hoffset := hsound.toOffset_eq hinside
    rw [htext, Text.charsForUnits_succ] at hoffset
    exact_mod_cast hoffset

/-- An area whose last snapshot is of a text without pairs; the text that came then has one. -/
def retyped : TextArea := ((({} : TextArea).setText "ab").1.capture.setText "a😀b").1

/-- A pair takes two units although the last snapshot was of a text without pairs. -/
theorem retyped_offsets : (∃ textOf, retyped.Reached textOf) ∧
    retyped.taken.map Snapshot.hasPairs = some false ∧
    retyped.toPosition 2 = 3 ∧ retyped.toOffset 2 = 2 ∧ retyped.toOffset 3 = 2 ∧
    ∃ b signals, retyped.addCaret 7 = (true, b, signals) ∧ b.selections = [(0, 0), (3, 3)] := by
  have hreached : retyped.Reached fun revision => ["", "ab", "a😀b"].getD revision "" := by
    refine .happens (.happens (.happens (.start rfl) (.setText _ "ab") rfl) (.capture _) ?_)
      (.setText _ "a😀b") ?_
    · decide
    · decide
  obtain ⟨hposition, _, hinside, _, hcaret⟩ := offsets_agree hreached
  have htwo : retyped.toPosition 2 = 3 := (hposition 2 (by decide)).1
  have hback : retyped.toOffset (retyped.toPosition 2) = 2 := (hposition 2 (by decide)).2
  rw [htwo] at hback
  have hadded : retyped.addCaret 7 =
      (true, (retyped.addCaret 7).2.1, (retyped.addCaret 7).2.2) := by
    rw [Prod.mk.injEq]
    exact ⟨by decide, rfl⟩
  have hfirst : retyped.selections = [(0, 0)] := by decide
  have hlast := hcaret 7 _ _ hadded
  rw [hfirst] at hlast
  exact ⟨⟨_, hreached⟩, by decide, htwo, hinside ['a'] ['b'] '😀' (by decide), hback, _, _, hadded,
    hlast⟩

end TextArea

end Conceal
