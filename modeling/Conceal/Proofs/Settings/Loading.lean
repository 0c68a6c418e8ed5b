import Conceal.Proofs.Json.Reading
import Conceal.Proofs.Settings.Delivery

/-!
What a store holds after its file was read again and again. Each time either the section of the file
takes effect as a whole, or the file cannot be used, and then only the reason is kept. Main
statement: `loads_all_or_nothing`.
-/

namespace Conceal

open Json (TextOf)

/-! ## Files -/

namespace Text

theorem ofBytes?_eq_none {bytes : ByteArray} (h : ¬ bytes.IsValidUTF8) : ofBytes? bytes = none := by
  have hread : String.fromUTF8? bytes = none := dif_neg h
  rw [ofBytes?, hread, Option.map_none]

theorem exists_ofBytes? {bytes : ByteArray} (h : bytes.IsValidUTF8) :
    ∃ text, ofBytes? bytes = some text := by
  have hread : String.fromUTF8? bytes = some (String.fromUTF8 bytes h) := dif_pos h
  exact ⟨_, by rw [ofBytes?, hread, Option.map_some]⟩

end Text

namespace FileTree

/-- Is there a text in the file at a path? -/
def Holds (files : FileTree) (path : Path) (text : String) : Prop :=
  ∃ bytes, files.find path = .ok (.file bytes) ∧ Text.ofBytes? bytes = some text

variable {files : FileTree} {path : Path} {text : String}

/-- A text is read exactly if the path holds it. -/
theorem readText_eq_ok_iff : files.readText path = .ok text ↔ files.Holds path text := by
  unfold readText read Holds
  cases hfind : files.find path with
  | error fault => simp [bind, Except.bind]
  | ok node =>
    cases node with
    | directory => simp [bind, Except.bind, throw, throwThe, MonadExceptOf.throw]
    | file bytes =>
      cases hbytes : Text.ofBytes? bytes <;>
        simp [bind, Except.bind, pure, Except.pure, hbytes, throw, throwThe, MonadExceptOf.throw]

theorem exists?_of_find {node : FileNode} (h : files.find path = .ok node) :
    files.exists? path = true := by
  rw [exists?, h]
  rfl

/-- A path that leads nowhere meets a file on its way, or nothing. -/
theorem fault_of_walk {fault : Fault} {here names : List String}
    (h : files.walk here names = .error fault) : fault = .notDirectory ∨ fault = .fileNotFound := by
  induction names generalizing here with
  | nil => cases h
  | cons name rest ih =>
    unfold walk at h
    split at h
    · split at h
      · exact ih h
      · exact ih h
    · cases h
      exact Or.inl rfl
    · cases h
      exact Or.inr rfl

/-- What goes wrong as a text is read is the file's fault or its bytes'. -/
theorem fault_of_readText {fault : Fault} (h : files.readText path = .error fault) :
    fault ∈ [.notDirectory, .fileNotFound, .fileIsDirectory, .notText] := by
  unfold readText read find locate at h
  -- on the way to the file, at its place, or in its bytes
  cases hwalk : files.walk [] (files.base.join path).names with
  | error fault' =>
    rw [hwalk] at h
    cases h
    rcases fault_of_walk hwalk with rfl | rfl <;> simp
  | ok names =>
    rw [hwalk] at h
    cases hat : files.at? names with
    | none =>
      simp only [bind, Except.bind, hat] at h
      cases h
      simp
    | some node =>
      cases node with
      | directory =>
        simp only [bind, Except.bind, hat, pure, Except.pure] at h
        cases h
        simp
      | file bytes =>
        simp only [bind, Except.bind, hat, pure, Except.pure] at h
        cases hbytes : Text.ofBytes? bytes with
        | some text => rw [hbytes] at h; cases h
        | none =>
          rw [hbytes] at h
          cases h
          simp

end FileTree

namespace SettingsStore

/-! ## What a state of the files means to a store -/

/-- The section that the files have for a store with a path: that of its file, if it has one. -/
inductive Finds (d : Json.Dialect) (files : FileTree) : Option Path → Json.Members → Prop
  | noPath : Finds d files none []
  | missing {path : Path} (h : files.exists? path = false) : Finds d files (some path) []
  | absent {path : Path} {text : String} {root : Json.Members} (h : files.Holds path text)
      (htext : TextOf d (.obj root) text) (hkey : ∀ m ∈ root, m.1 ≠ Settings.sectionKey) :
      Finds d files (some path) []
  | present {path : Path} {text : String} {root members : Json.Members}
      (h : files.Holds path text) (htext : TextOf d (.obj root) text)
      (hkey : (Settings.sectionKey, .obj members) ∈ root) : Finds d files (some path) members

/-- Why the file at the path of a store cannot be used: it is a directory, or its bytes are not
UTF-8, or its text does not spell a value, or this is no object or has something else than an object
for its section. -/
inductive Refuses (d : Json.Dialect) (files : FileTree) : Option Path → SettingsFault → Prop
  | directory {path : Path} (h : files.find path = .ok .directory) :
      Refuses d files (some path) .unreadable
  | notText {path : Path} {bytes : ByteArray} (h : files.find path = .ok (.file bytes))
      (hbytes : ¬ bytes.IsValidUTF8) : Refuses d files (some path) .unreadable
  | notJson {path : Path} {text : String} (h : files.Holds path text)
      (htext : ∀ v, ¬ TextOf d v text) : Refuses d files (some path) .unreadable
  | rootNotObject {path : Path} {text : String} {v : Json} (h : files.Holds path text)
      (htext : TextOf d v text) (hroot : ∀ members, v ≠ .obj members) :
      Refuses d files (some path) (.rootNotObject path.toString v.kindName)
  | sectionNotObject {path : Path} {text : String} {root : Json.Members} {v : Json}
      (h : files.Holds path text) (htext : TextOf d (.obj root) text)
      (hkey : (Settings.sectionKey, v) ∈ root) (hsection : ∀ members, v ≠ .obj members) :
      Refuses d files (some path) (.sectionNotObject path.toString v.kindName)

variable {s : SettingsStore} {files : FileTree} {path : Option Path} {members : Json.Members}
  {fault : SettingsFault}

/-- Reading a section reads the whole text of its file. -/
theorem readSection_of_holds {p : Path} {text : String} (h : files.Holds p text) :
    readSection files p = match Json.parse text with
      | .ok value => sectionOf p.toString value
      | .error _ => .error .unreadable := by
  have htext := FileTree.readText_eq_ok_iff.mpr h
  obtain ⟨bytes, hfind, -⟩ := h
  unfold readSection
  rw [if_pos (FileTree.exists?_of_find hfind)]
  split
  next text' htext' =>
    cases htext.symm.trans htext'
    rfl
  next htext' => cases htext.symm.trans htext'

/-- What is there but holds no text is refused. -/
theorem readSection_of_not_holds {p : Path} {node : FileNode} (hfind : files.find p = .ok node)
    (h : ∀ text, ¬ files.Holds p text) : readSection files p = .error .unreadable := by
  unfold readSection
  rw [if_pos (FileTree.exists?_of_find hfind)]
  split
  next text htext => exact absurd (FileTree.readText_eq_ok_iff.mp htext) (h text)
  · rfl

theorem readSection_of_textOf {p : Path} {text : String} {v : Json} (h : files.Holds p text)
    (htext : TextOf .lenient v text) : readSection files p = sectionOf p.toString v := by
  rw [readSection_of_holds h, Json.parse_eq_ok_iff.mpr htext]

/-- In what is read, a key leads to the value that stands beside it. -/
theorem get?_of_textOf {root : Json.Members} {text key : String} {v : Json}
    (htext : TextOf .lenient (.obj root) text) (h : (key, v) ∈ root) :
    Json.Members.get? root key = some v := by
  have hproper := Json.proper_parse (Json.parse_eq_ok_iff.mpr htext)
  exact lookup_of_mem (Json.proper_obj.mp hproper).1 h

/-- What a file says is found in it. -/
theorem Finds.found_eq (h : Finds .lenient files path members) (hpath : s.path = path) :
    s.found files = .ok members := by
  rw [found, hpath]
  cases h with
  | noPath => rfl
  | missing h => simp [readSection, h]
  | @absent _ _ root h htext hkey =>
    have hget : Json.Members.get? root Settings.sectionKey = none :=
      List.lookup_eq_none_iff.mpr fun m hm => by simpa using Ne.symm (hkey m hm)
    simp [readSection_of_textOf h htext, sectionOf, hget]
  | present h htext hkey =>
    simp [readSection_of_textOf h htext, sectionOf, get?_of_textOf htext hkey]

/-- Each reason to refuse a file is the fault of the load. -/
theorem Refuses.found_eq (h : Refuses .lenient files path fault) (hpath : s.path = path) :
    s.found files = .error fault := by
  rw [found, hpath]
  -- each reason is met at one place of the reader
  cases h with
  | directory h =>
    refine readSection_of_not_holds h ?_
    rintro text ⟨bytes, hfile, -⟩
    rw [h] at hfile
    cases hfile
  | @notText _ bytes h hbytes =>
    refine readSection_of_not_holds h ?_
    rintro text ⟨bytes', hfile, htext⟩
    rw [h] at hfile
    cases hfile
    rw [Text.ofBytes?_eq_none hbytes] at htext
    cases htext
  | notJson h htext =>
    dsimp only
    rw [readSection_of_holds h]
    split
    next value hparse => exact absurd (Json.parse_eq_ok_iff.mp hparse) (htext value)
    · rfl
  | @rootNotObject _ _ v h htext hroot =>
    dsimp only
    rw [readSection_of_textOf h htext]
    cases v with
    | obj members => exact absurd rfl (hroot members)
    | _ => rfl
  | @sectionNotObject _ _ root v h htext hkey hsection =>
    dsimp only
    rw [readSection_of_textOf h htext, sectionOf, get?_of_textOf htext hkey]
    cases v with
    | obj members => exact absurd rfl (hsection members)
    | _ => rfl

theorem finds_or_refuses_of_holds {p : Path} {text : String} (h : files.Holds p text) :
    (∃ members, Finds .lenient files p members) ∨ ∃ fault, Refuses .lenient files p fault := by
  cases hparse : Json.parse text with
  | error _ =>
    refine Or.inr ⟨_, .notJson h fun v htext => ?_⟩
    rw [Json.parse_eq_ok_iff.mpr htext] at hparse
    cases hparse
  | ok v =>
    have htext := Json.parse_eq_ok_iff.mp hparse
    cases v with
    | obj root =>
      cases hget : Json.Members.get? root Settings.sectionKey with
      | none =>
        refine Or.inl ⟨[], .absent h htext fun m hm hkey => ?_⟩
        simpa [hkey] using List.lookup_eq_none_iff.mp hget m hm
      | some v =>
        have hkey := mem_of_lookup hget
        cases v with
        | obj members => exact Or.inl ⟨members, .present h htext hkey⟩
        | _ => exact Or.inr ⟨_, .sectionNotObject h htext hkey (by simp)⟩
    | _ => exact Or.inr ⟨_, .rootNotObject h htext (by simp)⟩

/-- Every state of the files means one or the other. -/
theorem finds_or_refuses (files : FileTree) (path : Option Path) :
    (∃ members, Finds .lenient files path members) ∨
      ∃ fault, Refuses .lenient files path fault := by
  cases path with
  | none => exact Or.inl ⟨[], .noPath⟩
  | some p =>
    cases hfind : files.find p with
    | error fault =>
      exact Or.inl ⟨[], .missing (by simp [FileTree.exists?, hfind, Except.toOption])⟩
    | ok node =>
      cases node with
      | directory => exact Or.inr ⟨_, .directory hfind⟩
      | file bytes =>
        by_cases hbytes : bytes.IsValidUTF8
        · obtain ⟨text, htext⟩ := Text.exists_ofBytes? hbytes
          exact finds_or_refuses_of_holds ⟨bytes, hfind, htext⟩
        · exact Or.inr ⟨_, .notText hfind hbytes⟩

/-- A file that says something is not refused. -/
theorem Finds.not_refuses (h : Finds .lenient files path members) :
    ¬ Refuses .lenient files path fault := by
  intro h'
  have hpath : ({ path } : SettingsStore).path = path := rfl
  cases (h.found_eq hpath).symm.trans (h'.found_eq hpath)

/-! ## Reading the file again and again -/

theorem load_of_finds (hpath : s.path = path) (h : Finds .lenient files path members) :
    s.load files = { s with loaded := members, lastFault := none } :=
  load_of_ok (h.found_eq hpath)

theorem load_of_refuses (hpath : s.path = path) (h : Refuses .lenient files path fault) :
    s.load files = { s with lastFault := some fault } :=
  load_of_error (h.found_eq hpath)

/-- A load has no fault exactly if the file says something. -/
theorem lastFault_load_eq_none_iff (hpath : s.path = path) :
    (s.load files).lastFault = none ↔ ∃ members, Finds .lenient files path members := by
  rcases finds_or_refuses files path with ⟨members, hfinds⟩ | ⟨fault, hrefuses⟩
  · rw [load_of_finds hpath hfinds]
    exact iff_of_true rfl ⟨members, hfinds⟩
  · rw [load_of_refuses hpath hrefuses]
    exact iff_of_false (by simp) fun ⟨_, hfinds⟩ => hfinds.not_refuses hrefuses

/-- A load has the fault that the file is refused for. -/
theorem lastFault_load_eq_some_iff (hpath : s.path = path) :
    (s.load files).lastFault = some fault ↔ Refuses .lenient files path fault := by
  constructor
  · intro h
    rcases finds_or_refuses files path with hfinds | ⟨fault', hrefuses⟩
    · rw [(lastFault_load_eq_none_iff hpath).mpr hfinds] at h
      cases h
    · rw [load_of_refuses hpath hrefuses] at h
      cases h
      exact hrefuses
  · intro h
    rw [load_of_refuses hpath h]

/-- A store after its file was read again and again, each time in another state of the files. -/
def loads (s : SettingsStore) (states : List FileTree) : SettingsStore := states.foldl load s

theorem loads_append (s : SettingsStore) (states more : List FileTree) :
    s.loads (states ++ more) = (s.loads states).loads more := List.foldl_append

theorem path_loads (s : SettingsStore) (states : List FileTree) :
    (s.loads states).path = s.path := by
  induction states generalizing s with
  | nil => rfl
  | cons files rest ih => exact (ih (s.load files)).trans (path_load s files)

/-- Files that cannot be used leave the section as it is. -/
theorem loaded_loads (hpath : s.path = path) {states : List FileTree}
    (h : ∀ files ∈ states, ∃ fault, Refuses .lenient files path fault) :
    (s.loads states).loaded = s.loaded := by
  induction states generalizing s with
  | nil => rfl
  | cons files rest ih =>
    obtain ⟨fault, hfault⟩ := h files List.mem_cons_self
    have hload := load_of_refuses hpath hfault
    have hrest := ih ((path_load s files).trans hpath) fun f hf => h f (List.mem_cons_of_mem _ hf)
    rw [loads, List.foldl_cons, ← loads, hrest, hload]

/-- The section that was found last stays in effect. -/
theorem loaded_of_finds (h : Finds .lenient files path members) {before after : List FileTree}
    (hafter : ∀ f ∈ after, ∃ fault, Refuses .lenient f path fault) :
    (({ path } : SettingsStore).loads (before ++ files :: after)).loaded = members := by
  have hpath := path_loads { path } before
  have hrest := loaded_loads ((path_load _ files).trans hpath) hafter
  rw [loads_append, loads, List.foldl_cons, ← loads, hrest, load_of_finds hpath h]

/-- Whatever states the file of a store goes through, each time it is read again: just one of two
things happens. Either the files have a section for the store, which is empty when there is no file
or no section in it; then this is what the store holds from now on, and there is no fault. Or the
file cannot be used: it is a directory, or not UTF-8, or it spells no value, or one that is no
object or has something else than an object for its section; then the fault says so, and what the
store holds is what it held before, however often this happens. Reading the text only ever fails for
reasons that are met in this way. -/
theorem loads_all_or_nothing (path : Option Path) :
    (∀ files, (∃ members, Finds .lenient files path members) ↔
      ¬ ∃ fault, Refuses .lenient files path fault) ∧
    (∀ states, (∀ files ∈ states, ∃ fault, Refuses .lenient files path fault) →
      (({ path } : SettingsStore).loads states).data = .obj [(Settings.sectionKey, .obj [])]) ∧
    (∀ before files after members, Finds .lenient files path members →
      (∀ f ∈ after, ∃ fault, Refuses .lenient f path fault) →
      (({ path } : SettingsStore).loads (before ++ files :: after)).data =
        .obj [(Settings.sectionKey, .obj members)]) ∧
    (({ path } : SettingsStore).loads []).lastFault = none ∧
    (∀ states files,
      let s := ({ path } : SettingsStore).loads states
      let s' := ({ path } : SettingsStore).loads (states ++ [files])
      (s'.lastFault = none ↔ ∃ members, Finds .lenient files path members) ∧
      (∀ fault, s'.lastFault = some fault ↔ Refuses .lenient files path fault) ∧
      ∀ fault, Refuses .lenient files path fault → s'.data = s.data) ∧
    ∀ (files : FileTree) (p : Path) (fault : Fault), files.readText p = .error fault →
      fault ∈ [.notDirectory, .fileNotFound, .fileIsDirectory, .notText] := by
  refine ⟨fun files => ?_, fun states h => ?_, fun before files after members hfinds h => ?_, rfl,
    fun states files => ?_, fun _ _ _ h => FileTree.fault_of_readText h⟩
  · constructor
    · rintro ⟨members, hfinds⟩ ⟨fault, hrefuses⟩
      exact hfinds.not_refuses hrefuses
    · intro hnot
      exact (finds_or_refuses files path).resolve_right hnot
  · rw [data, loaded_loads rfl h]
  · rw [data, loaded_of_finds hfinds h]
  · -- one more load, after any number of others
    have hpath := path_loads { path } states
    intro s s'
    have hlast : s' = s.load files := loads_append _ _ _
    rw [hlast]
    refine ⟨lastFault_load_eq_none_iff hpath, fun _ => lastFault_load_eq_some_iff hpath, ?_⟩
    intro fault hrefuses
    rw [load_of_refuses hpath hrefuses]
    rfl

/-! ## A section and a long number -/

/-- A section with one key. -/
def switchedOff : Json.Members := [("enabled", .bool false)]

/-- The member with this section. -/
def sectionText : List Char := "\"symbol_masks\":\x7b\"enabled\":false\x7d".toList

/-- The section of the example is spelled in each dialect. -/
private theorem spells_sectionText (d : Json.Dialect) :
    Json.SpellsMember d (Settings.sectionKey, .obj switchedOff) sectionText := by
  have henabled : Json.SpellsMember d ("enabled", .bool false) _ :=
    Json.Spells.no.member _ (by decide)
  exact (Json.Spells.obj (.one henabled)).member Settings.sectionKey (by decide)

/-- The text of a settings file with this section. -/
def rootText : String := String.ofList ('\x7b' :: (sectionText ++ ['\x7d']))

theorem holds_holding (text : String) (h : '\r' ∉ text.toList) :
    (SettingsWatcher.holding text).Holds SettingsWatcher.settingsPath text :=
  FileTree.readText_eq_ok_iff.mp (SettingsWatcher.readText_holding h)

/-- A section stays in effect when a directory takes the place of its file. -/
theorem section_outlasts :
    let path := SettingsWatcher.settingsPath
    let broken : FileTree := { entries := [(path.names, .directory)] }
    Finds .lenient (SettingsWatcher.holding rootText) path switchedOff ∧
      Refuses .lenient broken path .unreadable ∧
      (({ path } : SettingsStore).loads [SettingsWatcher.holding rootText, broken]).data =
        .obj [(Settings.sectionKey, .obj switchedOff)] ∧
      (({ path } : SettingsStore).loads [SettingsWatcher.holding rootText, broken]).lastFault =
        some .unreadable := by
  intro path broken
  have htext : TextOf .lenient (.obj [(Settings.sectionKey, .obj switchedOff)]) rootText := by
    rw [TextOf, rootText, String.toList_ofList]
    exact (Json.Spells.obj (.one (spells_sectionText .lenient))).padded
  have hfinds : Finds .lenient (SettingsWatcher.holding rootText) path switchedOff :=
    .present (holds_holding _ (by decide)) htext (by simp)
  have hrefuses : Refuses .lenient broken path .unreadable := .directory rfl
  obtain ⟨-, -, hdata, -, hlast, -⟩ := loads_all_or_nothing path
  refine ⟨hfinds, hrefuses, hdata [] _ [broken] _ hfinds ?_, ?_⟩
  · rintro f hf
    rw [List.mem_singleton.mp hf]
    exact ⟨_, hrefuses⟩
  · exact ((hlast [SettingsWatcher.holding rootText] broken).2.1 _).mpr hrefuses

/-- So many ones and another one. -/
def ones (n : Nat) : List Char := List.replicate (n + 1) '1'

/-- A settings file with a section and a whole number. -/
def numberText (number : List Char) : String := String.ofList
  ('\x7b' :: (sectionText ++ ',' :: ('"' :: 'x' :: '"' :: ':' :: number) ++ ['\x7d']))

private theorem whole_ones (n : Nat) : Json.Whole (ones n) :=
  .digits ⟨by simp [ones], by simp [ones]⟩ (by simp [ones, List.replicate_succ])

/-- What this file spells. -/
def numberRoot (number : List Char) : Json.Members :=
  [(Settings.sectionKey, .obj switchedOff),
    ("x", .int (Number.Exact.signed false (Number.digitsValue (Json.digitValues number))))]

private theorem textOf_numberText (n : Nat) :
    TextOf .strict (.obj (numberRoot (ones n))) (numberText (ones n)) := by
  have hnumber : Json.Spells .strict _ (ones n) :=
    .number (.int (whole_ones n) fun _ h => by cases h)
  have hmember := hnumber.member "x" (by decide)
  rw [TextOf, numberText, String.toList_ofList]
  exact (Json.Spells.obj (.cons (spells_sectionText .strict) (.one hmember))).padded

section

open Json.Reader

variable {n : Nat}

/-- Too many digits in a number stop the reader, wherever it stands. -/
private theorem value_ones (h : Number.maxDigits ≤ n) (fuel : Nat) :
    value (fuel + 1) (skipSpace (ones n ++ ['\x7d'])) = .error .tooManyDigits := by
  have hlong : Number.maxDigits < (ones n).length := by
    rw [ones, List.length_replicate]
    omega
  have hfirst : ones n = '1' :: List.replicate n '1' := List.replicate_succ
  rw [hfirst, List.cons_append, Json.skipSpace_cons (by decide), Json.value_digit (by decide),
    ← List.cons_append, ← hfirst]
  exact Json.number_of_long (whole_ones n) hlong (Json.closed_cons _ [] (by decide))

/-- After the section is read, the number is met. -/
private theorem parse_numberText (h : Number.maxDigits ≤ n) :
    Json.parse (numberText (ones n)) = .error .tooManyDigits := by
  let tail := '"' :: 'x' :: '"' :: ':' :: (ones n ++ ['\x7d'])
  have htext : (numberText (ones n)).toList = '\x7b' :: (sectionText ++ ',' :: tail) := by
    simp [numberText, tail]
  -- an object, its first member and its second one each take some fuel
  obtain ⟨fuel, hfuel⟩ : ∃ fuel, 2 * (numberText (ones n)).toList.length + 2 = fuel + 4 ∧
      2 * sectionText.length ≤ fuel + 2 := by
    refine ⟨2 * (sectionText.length + tail.length + 1), ?_, by omega⟩
    rw [htext]
    simp
    omega
  have hkey : Json.Units ['x'] _ := (Json.units_of_plain (by decide)).1
  have hvalue : value (fuel + 4) ('\x7b' :: (sectionText ++ ',' :: tail)) =
      .error .tooManyDigits :=
    calc value (fuel + 4) ('\x7b' :: (sectionText ++ ',' :: tail))
      _ = members (fuel + 3) [] (skipSpace (sectionText ++ ',' :: tail)) :=
        Json.value_members (Json.skipSpace_cons (by decide) _)
      _ = members (fuel + 2) [(Settings.sectionKey, .obj switchedOff)] (skipSpace tail) :=
        (Json.readers_complete (fuel + 2)).1.members_cons (spells_sectionText .lenient) hfuel.2 []
      _ = .error .tooManyDigits := by
        rw [Json.skipSpace_cons (by decide)]
        exact Json.members_of_error hkey Json.blank_nil (value_ones h fuel) _
  rw [Json.parse, hfuel.1, htext, Json.skipSpace_cons (by decide), hvalue]
  rfl

end

/-- A file may be in the notation as such, and its section may be an object: a number elsewhere in
it that is too long is still a reason that it cannot be used. -/
private theorem refuses_numberText {n : Nat} (h : Number.maxDigits ≤ n) :
    Finds .strict (SettingsWatcher.holding (numberText (ones n))) SettingsWatcher.settingsPath
        switchedOff ∧
      Refuses .lenient (SettingsWatcher.holding (numberText (ones n))) SettingsWatcher.settingsPath
        .unreadable := by
  have hsection : '\r' ∉ sectionText := by decide
  have hfile := holds_holding (numberText (ones n)) (by simp [numberText, ones, hsection])
  refine ⟨.present hfile (textOf_numberText n) List.mem_cons_self, .notJson hfile fun v htext => ?_⟩
  rw [← Json.parse_eq_ok_iff, parse_numberText h] at htext
  cases htext

theorem long_number_refused :
    let path := SettingsWatcher.settingsPath
    let files := SettingsWatcher.holding (numberText (ones Number.maxDigits))
    Finds .strict files path switchedOff ∧
      (({ path } : SettingsStore).load files).lastFault = some .unreadable ∧
      (({ path } : SettingsStore).load files).data = .obj [(Settings.sectionKey, .obj [])] := by
  obtain ⟨hfinds, hrefuses⟩ := refuses_numberText le_rfl
  intro path files
  have hload := load_of_refuses (s := { path }) rfl hrefuses
  refine ⟨hfinds, ?_, ?_⟩
  · rw [hload]
  · rw [hload]
    rfl

end SettingsStore

end Conceal
