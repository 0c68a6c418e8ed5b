import Conceal.Editor.TextArea

/-!
Files of an area. A text is shown or written as a whole or not at all: whatever goes wrong with the
file, the area is as it was, and has sent nothing. A text without carriage returns that was written
is shown again as it was. Main statement: `files_keep_texts`.
-/

namespace Conceal

/-! ## Writing a file -/

namespace FileTree

variable {t t' : FileTree} {p : Path} {names : List String}

/-- What is at a place after another was put: the new node there, and the rest as before. -/
private theorem at?_put (hne : names ≠ []) (node : FileNode) (other : List String) :
    (t.put names node).at? other = if other = names then some node else t.at? other := by
  unfold at? put
  by_cases hsame : other = names
  · subst hsame
    rw [if_pos rfl, if_neg (by simpa using hne), List.lookup_cons_self]
  · rw [if_neg hsame, List.lookup_cons, beq_eq_false_iff_ne.mpr hsame]
    dsimp only
    congr 1
    induction t.entries with
    | nil => rfl
    | cons entry rest ih =>
      rw [List.filter_cons]
      split
      · rw [List.lookup_cons, List.lookup_cons, ih]
      next hdropped =>
        rw [bne_iff_ne, Decidable.not_not] at hdropped
        rw [ih, List.lookup_cons, beq_eq_false_iff_ne.mpr (hdropped ▸ hsame)]

/-- What is put where there is no directory blocks no way that there was. -/
private theorem walk_put (hdirectory : t.at? names ≠ some .directory) (node : FileNode)
    {here rest way : List String} (h : t.walk here rest = .ok way) :
    (t.put names node).walk here rest = .ok way := by
  have hne : names ≠ [] := by
    rintro rfl
    exact hdirectory rfl
  induction rest generalizing here with
  | nil => exact h
  | cons name rest ih =>
    rw [walk] at h ⊢
    cases hhere : t.at? here.reverse with
    | none =>
      rw [hhere] at h
      cases h
    | some found =>
      rw [hhere] at h
      cases found with
      | file bytes => cases h
      | directory =>
        -- the way leads through a directory here, so this is not where something was put
        have hother : here.reverse ≠ names := by
          rintro rfl
          exact hdirectory hhere
        rw [at?_put hne, if_neg hother, hhere]
        dsimp only at h ⊢
        split
        next hup =>
          rw [if_pos hup] at h
          exact ih h
        next hdown =>
          rw [if_neg hdown] at h
          exact ih h

/-- A file that is written is at the end of the way that led there, where no directory is. -/
theorem write_eq_ok_iff {bytes : ByteArray} : t.write p bytes = .ok t' ↔
    ∃ names, t.locate p = .ok names ∧ t.at? names ≠ some .directory ∧
      t' = t.put names (.file bytes) := by
  unfold write
  rw [bind_eq_ok]
  refine exists_congr fun names => and_congr_right fun _ => ?_
  constructor
  · intro h
    split at h
    · cases h
    next hdirectory => exact ⟨hdirectory, (Except.ok.inj h).symm⟩
  · rintro ⟨hdirectory, rfl⟩
    split
    next hfound => exact absurd hfound hdirectory
    · rfl

/-- A file that was written is found with what was written. -/
theorem find_write {bytes : ByteArray} (h : t.write p bytes = .ok t') :
    t'.find p = .ok (.file bytes) := by
  obtain ⟨names, hlocate, hdirectory, rfl⟩ := write_eq_ok_iff.mp h
  have hne : names ≠ [] := by
    rintro rfl
    exact hdirectory rfl
  refine bind_eq_ok.mpr ⟨names, walk_put hdirectory _ hlocate, ?_⟩
  rw [at?_put hne, if_pos rfl]
  rfl

/-- A text without carriage returns that is written is what is read then. -/
theorem readText_write {text : String} (htext : '\r' ∉ text.toList)
    (h : t.write p (Text.toBytes text) = .ok t') : t'.readText p = .ok text := by
  refine bind_eq_ok.mpr ⟨Text.toBytes text, bind_eq_ok.mpr ⟨_, find_write h, rfl⟩, ?_⟩
  rw [Text.ofBytes?_toBytes htext]
  rfl

end FileTree

/-! ## Opening and storing -/

theorem TextArea.clearCarets_fst (a : TextArea) : a.clearCarets.1 = { a with carets := [] } := by
  unfold clearCarets
  split
  next hempty => rw [← List.isEmpty_iff.mp hempty]
  · rfl

/-- Clearing the carets tells of nothing else. -/
theorem TextArea.mem_clearCarets {a : TextArea} {signal : Signal}
    (h : signal ∈ a.clearCarets.2) : signal = .caretsChanged := by
  unfold clearCarets at h
  split at h
  · cases h
  · exact List.mem_singleton.mp h

/-- A change of the language is told, and nothing else. -/
theorem TextArea.mem_setFilePath {a : TextArea} {filePath : Option String} {signal : Signal} :
    signal ∈ (a.setFilePath filePath).2 ↔
      signal = .languageChanged ∧ Language.ofPath filePath ≠ a.languageId := by
  unfold setFilePath
  dsimp only [languageId]
  by_cases hsame : Language.ofPath filePath = Language.ofPath a.filePath
  · simp [hsame]
  · simp [hsame]

namespace Filing

variable {s s' : Filing} {path : Path} {target : Option Path} {fault : Fault}

theorem act_apply (f : TextArea → TextArea × List Signal) (s : Filing) :
    act f s = .ok () { s with area := (f s.area).1, sent := s.sent ++ (f s.area).2 } := rfl

/-- What a file leaves behind that was opened or stored: its path, and no change since. -/
theorem settle_apply (path : Path) (s : Filing) : settle path s = .ok () { s with
    area := { s.area with modified := false, filePath := some path.toString }
    sent := s.sent ++ (s.area.setFilePath (some path.toString)).2 } := by
  rw [settle, Step.bind_of_ok (act_apply _ s), act_apply]
  simp only [List.append_nil]
  rfl

/-- Why a file cannot be opened: there can be none at the path, or no text is read there. -/
inductive Unopened (s : Filing) (path : Path) : Fault → Prop
  | path (hpath : path.usable = false) : Unopened s path .malformed
  | text {fault : Fault} (hpath : path.usable = true)
      (h : s.files.readText path = .error fault) : Unopened s path fault

/-- Where a text is stored: at the path that is given, or else at the one that the area has. -/
def destination (target : Option Path) (s : Filing) : Option Path :=
  target <|> s.area.filePath.map Path.ofString

/-- Why a text cannot be stored: there is no path for it, there can be no file at the path, or the
file is not written. -/
inductive Unstored (s : Filing) (target : Option Path) : Fault → Prop
  | nowhere (h : destination target s = none) : Unstored s target .noTarget
  | path {path : Path} (h : destination target s = some path) (hpath : path.usable = false) :
      Unstored s target .malformed
  | file {path : Path} {fault : Fault} (h : destination target s = some path)
      (hpath : path.usable = true)
      (hwrite : s.files.write path (Text.toBytes s.area.text) = .error fault) :
      Unstored s target fault

/-- The text of a file is shown, which is the file of the area now. -/
def shown (path : Path) (text : String) (s : Filing) : Filing where
  files := s.files
  area := { s.area with
    text
    revision := s.area.revision + 1
    modified := false
    anchor := 0
    position := 0
    carets := []
    filePath := some path.toString }
  sent := s.sent ++ s.area.clearCarets.2 ++ [.textChanged] ++
    (s.area.setFilePath (some path.toString)).2

/-- The text is in the file, which is the file of the area now. -/
def stored (path : Path) (files : FileTree) (s : Filing) : Filing where
  files
  area := { s.area with modified := false, filePath := some path.toString }
  sent := s.sent ++ (s.area.setFilePath (some path.toString)).2 ++ [.saved]

/-- A file that cannot be opened leaves the whole state as it was. -/
theorem opening_of_unopened (h : Unopened s path fault) : opening path s = .error fault s := by
  unfold opening
  cases h with
  | path hpath =>
    rw [hpath]
    rfl
  | text hpath htext =>
    rw [hpath]
    show (Step.ofExcept (s.files.readText path) >>= _) s = _
    rw [htext]
    rfl

/-- A file that has a text is shown with it. -/
theorem opening_of_text {text : String} (hpath : path.usable = true)
    (htext : s.files.readText path = .ok text) :
    opening path s = .ok () (shown path text s) := by
  unfold opening
  rw [hpath]
  show (Step.ofExcept (s.files.readText path) >>= _) s = _
  rw [htext, Step.bind_of_ok (show Step.ofExcept (.ok text) s = .ok text s from rfl),
    Step.bind_of_ok (act_apply _ _), Step.bind_of_ok (act_apply _ _), settle_apply,
    TextArea.clearCarets_fst]
  rfl

/-- A file has a text, or there is a reason why it has none. -/
theorem unopened_or_text (path : Path) (s : Filing) : (∃ fault, Unopened s path fault) ∨
    ∃ text, path.usable = true ∧ s.files.readText path = .ok text := by
  cases hpath : path.usable with
  | false => exact Or.inl ⟨_, .path hpath⟩
  | true =>
    cases htext : s.files.readText path with
    | error fault => exact Or.inl ⟨fault, .text hpath htext⟩
    | ok text => exact Or.inr ⟨text, rfl, rfl⟩

/-- A file is not opened for a reason, and then nothing has changed. -/
theorem opening_eq_error_iff :
    opening path s = .error fault s' ↔ s' = s ∧ Unopened s path fault := by
  constructor
  · intro h
    rcases unopened_or_text path s with ⟨fault', hwhy⟩ | ⟨text, hpath, htext⟩
    · cases (opening_of_unopened hwhy).symm.trans h
      exact ⟨rfl, hwhy⟩
    · cases (opening_of_text hpath htext).symm.trans h
  · rintro ⟨rfl, hwhy⟩
    exact opening_of_unopened hwhy

theorem opening_eq_ok_iff : opening path s = .ok () s' ↔
    ∃ text, path.usable = true ∧ s.files.readText path = .ok text ∧ s' = shown path text s := by
  constructor
  · intro h
    rcases unopened_or_text path s with ⟨fault', hwhy⟩ | ⟨text, hpath, htext⟩
    · cases (opening_of_unopened hwhy).symm.trans h
    · cases (opening_of_text hpath htext).symm.trans h
      exact ⟨text, hpath, htext, rfl⟩
  · rintro ⟨text, hpath, htext, rfl⟩
    exact opening_of_text hpath htext

/-- A text that cannot be stored leaves the whole state as it was. -/
theorem storing_of_unstored (h : Unstored s target fault) :
    storing target s = .error fault s := by
  unfold storing
  rw [Step.bind_of_ok (Step.get_apply s)]
  cases h with
  | nowhere htarget =>
    rw [destination] at htarget
    rw [htarget]
    rfl
  | path htarget hpath =>
    rw [destination] at htarget
    rw [htarget]
    dsimp only
    rw [hpath]
    rfl
  | file htarget hpath hwrite =>
    rw [destination] at htarget
    rw [htarget]
    dsimp only
    rw [hpath, hwrite]
    rfl

/-- A text that the host writes is stored. -/
theorem storing_of_write {files : FileTree} (htarget : destination target s = some path)
    (hpath : path.usable = true)
    (hwrite : s.files.write path (Text.toBytes s.area.text) = .ok files) :
    storing target s = .ok () (stored path files s) := by
  unfold storing
  rw [destination] at htarget
  rw [Step.bind_of_ok (Step.get_apply s), htarget]
  dsimp only
  rw [hpath, hwrite]
  show (settle path >>= fun _ => act fun a => (a, [.saved])) { s with files } = _
  rw [Step.bind_of_ok (settle_apply _ _), act_apply]
  rfl

/-- A text is written, or there is a reason why it is not. -/
theorem unstored_or_written (target : Option Path) (s : Filing) :
    (∃ fault, Unstored s target fault) ∨
    ∃ path files, destination target s = some path ∧ path.usable = true ∧
      s.files.write path (Text.toBytes s.area.text) = .ok files := by
  cases htarget : destination target s with
  | none => exact Or.inl ⟨_, .nowhere htarget⟩
  | some path =>
    cases hpath : path.usable with
    | false => exact Or.inl ⟨_, .path htarget hpath⟩
    | true =>
      cases hwrite : s.files.write path (Text.toBytes s.area.text) with
      | error fault => exact Or.inl ⟨fault, .file htarget hpath hwrite⟩
      | ok files => exact Or.inr ⟨path, files, rfl, hpath, hwrite⟩

/-- A text is not stored for a reason, and then nothing has changed. -/
theorem storing_eq_error_iff :
    storing target s = .error fault s' ↔ s' = s ∧ Unstored s target fault := by
  constructor
  · intro h
    rcases unstored_or_written target s with ⟨fault', hwhy⟩ | ⟨_, files, htarget, hpath, hwrite⟩
    · cases (storing_of_unstored hwhy).symm.trans h
      exact ⟨rfl, hwhy⟩
    · cases (storing_of_write htarget hpath hwrite).symm.trans h
  · rintro ⟨rfl, hwhy⟩
    exact storing_of_unstored hwhy

theorem storing_eq_ok_iff : storing target s = .ok () s' ↔
    ∃ path files, destination target s = some path ∧ path.usable = true ∧
      s.files.write path (Text.toBytes s.area.text) = .ok files ∧ s' = stored path files s := by
  constructor
  · intro h
    rcases unstored_or_written target s with ⟨fault', hwhy⟩ | ⟨_, files, htarget, hpath, hwrite⟩
    · cases (storing_of_unstored hwhy).symm.trans h
    · cases (storing_of_write htarget hpath hwrite).symm.trans h
      exact ⟨_, files, htarget, hpath, hwrite, rfl⟩
  · rintro ⟨path, files, htarget, hpath, hwrite, rfl⟩
    exact storing_of_write htarget hpath hwrite

/-! ## What follows -/

/-- The file at a path is the file of the area after something was done, and the text is as it is
there. If the language is another one now, then this was told, and else it was not. -/
structure Follows (path : Path) (s s' : Filing) : Prop where
  filePath : s'.area.filePath = some path.toString
  modified : s'.area.modified = false
  tells : ∃ signals, s'.sent = s.sent ++ signals ∧
    (.languageChanged ∈ signals ↔ Language.ofPath (some path.toString) ≠ s.area.languageId)

/-- Opening a file is followed by the signals of its language. -/
theorem follows_shown (path : Path) (text : String) (s : Filing) :
    Follows path s (shown path text s) := by
  refine ⟨rfl, rfl, s.area.clearCarets.2 ++ [.textChanged] ++
    (s.area.setFilePath (some path.toString)).2, by simp only [shown, List.append_assoc], ?_⟩
  -- neither clearing carets nor taking a text tells about the language
  rw [List.mem_append, List.mem_append, TextArea.mem_setFilePath]
  constructor
  · rintro ((h | h) | h)
    · cases TextArea.mem_clearCarets h
    · cases List.mem_singleton.mp h
    · exact h.2
  · exact fun h => Or.inr ⟨rfl, h⟩

/-- Storing a text is followed by the signals of its language. -/
theorem follows_stored (path : Path) (files : FileTree) (s : Filing) :
    Follows path s (stored path files s) := by
  refine ⟨rfl, rfl, (s.area.setFilePath (some path.toString)).2 ++ [.saved],
    by simp only [stored, List.append_assoc], ?_⟩
  rw [List.mem_append, TextArea.mem_setFilePath]
  simp

/-- A file is opened and a text is stored as a whole or not at all. It fails when the file is not
read or not written, and then the area and the files are as before and nothing was sent. A text
without carriage returns that was stored is shown again, unmodified, by any area that opens the
file. Either way the area takes over the path, and tells about its language when that is another one
than before, and only then. -/
theorem files_keep_texts :
    (∀ (path : Path) (s s' : Filing) (fault : Fault),
      opening path s = .error fault s' ↔ s' = s ∧ Unopened s path fault) ∧
    (∀ (target : Option Path) (s s' : Filing) (fault : Fault),
      storing target s = .error fault s' ↔ s' = s ∧ Unstored s target fault) ∧
    (∀ (path : Path) (s s' : Filing), opening path s = .ok () s' → Follows path s s' ∧
      s'.files = s.files ∧ s.files.readText path = .ok s'.area.text ∧ s'.area.carets = []) ∧
    ∀ (target : Option Path) (s s' : Filing), storing target s = .ok () s' →
      ∃ path, destination target s = some path ∧ Follows path s s' ∧
        s'.area.text = s.area.text ∧
        ('\r' ∉ s.area.text.toList → ∀ (a : TextArea) (sent : List Signal), ∃ s'',
          opening path ⟨s'.files, a, sent⟩ = .ok () s'' ∧ Follows path ⟨s'.files, a, sent⟩ s'' ∧
          s''.area.text = s.area.text ∧ s''.area.carets = []) := by
  refine ⟨fun _ _ _ _ => opening_eq_error_iff, fun _ _ _ _ => storing_eq_error_iff,
    fun path s s' h => ?_, fun target s s' h => ?_⟩
  · obtain ⟨text, -, htext, rfl⟩ := opening_eq_ok_iff.mp h
    exact ⟨follows_shown path text s, rfl, htext, rfl⟩
  · obtain ⟨path, files, htarget, hpath, hwrite, rfl⟩ := storing_eq_ok_iff.mp h
    refine ⟨path, htarget, follows_stored path files s, rfl, fun hreturns a sent => ?_⟩
    have hread := FileTree.readText_write hreturns hwrite
    exact ⟨shown path s.area.text ⟨files, a, sent⟩, opening_of_text hpath hread,
      follows_shown path _ _, rfl, rfl⟩

/-- A text that was never stored, and a directory with nothing in it. -/
def unstored : Filing where
  files := { entries := [(["d"], .directory)] }
  area := { text := "x\n", modified := true, carets := [1] }

/-- A file in that directory. -/
def newFile : Path := ⟨"/", ["d", "m.py"]⟩

/-- The text is not stored without a path, and the file is not opened before it is there. After the
text was stored, another area shows it and tells about its language. -/
theorem text_shown_again :
    Step.after (storing none) unstored = unstored ∧
    Step.after (opening newFile) unstored = unstored ∧
    ∃ s s', storing (some newFile) unstored = .ok () s ∧
      opening newFile ⟨s.files, {}, []⟩ = .ok () s' ∧ s'.area.text = "x\n" ∧
      s'.area.filePath = some "/d/m.py" ∧ .languageChanged ∈ s'.sent := by
  obtain ⟨hopening, hstoring, -, hstored⟩ := files_keep_texts
  have hnone : Step.outcome (storing none) unstored = .error .noTarget := rfl
  have hmissing : Step.outcome (opening newFile) unstored = .error .fileNotFound := rfl
  have hstore : Step.outcome (storing (some newFile)) unstored = .ok () := rfl
  refine ⟨((hstoring _ _ _ _).mp (Step.eq_of_outcome_error hnone)).1,
    ((hopening _ _ _ _).mp (Step.eq_of_outcome_error hmissing)).1,
    Step.after (storing (some newFile)) unstored, ?_⟩
  obtain ⟨path, hpath, -, -, hshown⟩ := hstored _ _ _ (Step.eq_of_outcome hstore)
  cases hpath
  obtain ⟨s', hopen, hfollows, htext, -⟩ := hshown (by decide) {} []
  obtain ⟨signals, hsent, htells⟩ := hfollows.tells
  refine ⟨s', Step.eq_of_outcome hstore, hopen, htext, hfollows.filePath, ?_⟩
  rw [hsent]
  exact htells.mpr (by decide +kernel)

end Filing

end Conceal
