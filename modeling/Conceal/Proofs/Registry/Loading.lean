import Conceal.Proofs.Grammar.Reading
import Conceal.Proofs.Settings.Loading
import Conceal.Registry

/-!
What comes of asking a registry for a grammar. The first contribution for the scope name is read, if
there is one; that its file is missing or holds no grammar is a fault of loading it. But some files
are not foreseen, and then something else goes wrong: bytes that are not text, numbers with too many
digits, and patterns that are refused for their repetitions or their flags. Main statement:
`load_outcomes`.
-/

namespace Conceal

/-! ## Texts of grammars -/

namespace Grammar

open Build (Trail Stop itemsInner)

variable {text source : String} {members entries : Json.Members} {fault : Fault}

/-- As the grammar in a text is read, all is fine until a pattern is met that does not compile. -/
def StopsAt (text pattern : String) (e : Regex.Fault) : Prop :=
  ∃ (members entries : Json.Members) (scopeName what : String),
    Json.parse text = .ok (.obj members) ∧
    members.get "scopeName" = .str scopeName ∧ Text.trim scopeName ≠ "" ∧
    (members.get "repository").orElse (.obj []) = .obj entries ∧
    Trail entries [] [] (itemsInner members) (.error (.pattern what pattern e))

/-- What comes of a pattern that is refused for another reason than its notation: its number of
repetitions is too large or has too many digits, or its flags exclude each other. -/
def failure? : Regex.Fault → Option Fault
  | .malformed => none
  | .repetitionTooLarge => some .unbounded
  | .repetitionTooLong => some .malformed
  | .classesConflict => some .malformed

/-- Why reading the grammar in a text fails though the grammar is not refused: a whole number has
too many digits, or a pattern is refused for another reason than its notation. -/
inductive Fails (text : String) : Fault → Prop
  | longNumber (h : Json.parse text = .error .tooManyDigits) : Fails text .malformed
  | pattern {pattern : String} {e : Regex.Fault} {fault : Fault} (h : StopsAt text pattern e)
      (hfault : failure? e = some fault) : Fails text fault

theorem Fails.not_load (h : Fails text fault) (cause : LoadFault) : fault ≠ .load cause := by
  cases h with
  | longNumber => simp
  | @pattern _ e _ _ hfault =>
    rintro rfl
    cases e <;> cases hfault

/-- A fault is another one than that a grammar is refused. -/
def Unrefused (fault : Fault) : Prop := ∀ source cause, fault ≠ .grammar source cause

theorem repository_eq_ok_iff (source : String) : Build.repository source members = .ok entries ↔
    (members.get "repository").orElse (.obj []) = .obj entries := by
  unfold Build.repository
  split
  next found hfound => simp [hfound]
  next hother => simpa using hother entries

/-- A repository that is none is a complaint of the grammar. -/
theorem repository_refuses (h : Build.repository source members = .error fault) :
    ¬ Unrefused fault := by
  unfold Build.repository at h
  split at h <;> cases h
  exact fun hunrefused => hunrefused _ _ rfl

/-- The table of a grammar fails where an item stops the reading. -/
theorem table_eq_error_iff (hrepository : Build.repository source members = .ok entries) :
    Build.table source members = .error fault ↔
      ∃ stop : Stop, stop.fault source = fault ∧
        Trail entries [] [] (itemsInner members) (.error stop) := by
  rcases Build.table_trail hrepository with ⟨rules, seen, htable, htrail⟩ | ⟨stop, htable, htrail⟩
  · rw [htable]
    refine iff_of_false (by simp) ?_
    rintro ⟨stop, -, hstop⟩
    cases htrail.unique hstop
  · rw [htable]
    constructor
    · intro h
      exact ⟨stop, Except.error.inj h, htrail⟩
    · rintro ⟨stop', rfl, hstop⟩
      cases htrail.unique hstop
      rfl

/-- Which faults of a pattern go through, and as what. -/
theorem failure?_eq_some_iff {what pattern : String} {e : Regex.Fault} :
    failure? e = some fault ↔
      Fault.ofPattern (.grammar source (.badPattern what pattern)) e = fault ∧ Unrefused fault := by
  cases e with
  | malformed =>
    refine iff_of_false (by simp [failure?]) ?_
    rintro ⟨rfl, hunrefused⟩
    exact hunrefused _ _ rfl
  | _ =>
    refine ⟨fun h => ?_, fun h => congrArg some h.1⟩
    cases h
    exact ⟨rfl, fun _ _ h => nomatch h⟩

/-- What stops the reading without a refusal is a pattern. -/
theorem unrefused_fault_iff {stop : Stop} : stop.fault source = fault ∧ Unrefused fault ↔
    ∃ what pattern e, stop = .pattern what pattern e ∧ failure? e = some fault := by
  cases stop with
  | flaw cause =>
    refine iff_of_false ?_ (by simp)
    rintro ⟨rfl, hunrefused⟩
    exact hunrefused source cause rfl
  | pattern what pattern e =>
    constructor
    · intro h
      exact ⟨what, pattern, e, rfl, failure?_eq_some_iff.mpr h⟩
    · rintro ⟨_, _, _, heq, he⟩
      cases heq
      exact failure?_eq_some_iff.mp he

/-- The table stops with a fault that goes through exactly where the trail meets its pattern. -/
theorem table_unrefused_iff : Build.table source members = .error fault ∧ Unrefused fault ↔
    ∃ entries what pattern e, (members.get "repository").orElse (.obj []) = .obj entries ∧
      Trail entries [] [] (itemsInner members) (.error (.pattern what pattern e)) ∧
      failure? e = some fault := by
  simp only [← repository_eq_ok_iff source]
  constructor
  · rintro ⟨h, hunrefused⟩
    cases hrepository : Build.repository source members with
    | error fault' =>
      rw [Build.table, hrepository] at h
      cases h
      exact absurd hunrefused (repository_refuses hrepository)
    | ok entries =>
      obtain ⟨stop, hfault, htrail⟩ := (table_eq_error_iff hrepository).mp h
      obtain ⟨what, pattern, e, rfl, he⟩ := unrefused_fault_iff.mp ⟨hfault, hunrefused⟩
      exact ⟨entries, what, pattern, e, rfl, htrail, he⟩
  · rintro ⟨entries, what, pattern, e, hrepository, htrail, he⟩
    obtain ⟨hfault, hunrefused⟩ := unrefused_fault_iff.mpr ⟨what, pattern, e, rfl, he⟩
    exact ⟨(table_eq_error_iff hrepository).mpr ⟨_, hfault, htrail⟩, hunrefused⟩

/-- With a scope name, what goes wrong goes wrong in the table; without one the grammar is refused.
-/
theorem ofMembers_unrefused_iff : ofMembers source members = .error fault ∧ Unrefused fault ↔
    ∃ scopeName, members.get "scopeName" = .str scopeName ∧ Text.trim scopeName ≠ "" ∧
      Build.table source members = .error fault ∧ Unrefused fault := by
  constructor
  · rintro ⟨h, hunrefused⟩
    unfold ofMembers at h
    split at h
    next scopeName hname =>
      dsimp only at h
      split at h
      · cases h
        exact absurd rfl (hunrefused _ _)
      next htrim =>
        rcases bind_eq_error.mp h with htable | ⟨_, _, h⟩
        · exact ⟨scopeName, hname, htrim, htable, hunrefused⟩
        · cases h
    · cases h
      exact absurd rfl (hunrefused _ _)
  · rintro ⟨scopeName, hname, htrim, htable, hunrefused⟩
    refine ⟨?_, hunrefused⟩
    simp only [ofMembers, hname, if_neg htrim, htable]
    rfl

/-- A grammar stops with a fault that goes through exactly where its text does. -/
theorem ofMembers_unrefused_iff_of_parse (hparse : Json.parse text = .ok (.obj members)) :
    ofMembers source members = .error fault ∧ Unrefused fault ↔
      ∃ pattern e, StopsAt text pattern e ∧ failure? e = some fault := by
  rw [ofMembers_unrefused_iff]
  simp only [table_unrefused_iff]
  constructor
  · rintro ⟨scopeName, hname, htrim, entries, what, pattern, e, hentries, htrail, he⟩
    exact ⟨pattern, e, ⟨members, entries, scopeName, what, hparse, hname, htrim, hentries, htrail⟩,
      he⟩
  · rintro ⟨pattern, e, hstop, he⟩
    obtain ⟨members', entries, scopeName, what, hparse', hname, htrim, hentries, htrail⟩ := hstop
    cases hparse.symm.trans hparse'
    exact ⟨scopeName, hname, htrim, entries, what, pattern, e, hentries, htrail, he⟩

/-- Reading the grammar in a text fails without a refusal for these reasons only. -/
theorem ofJson_unrefused_iff (source : String) :
    ofJson source (.str text) = .error fault ∧ Unrefused fault ↔ Fails text fault := by
  constructor
  · rintro ⟨h, hunrefused⟩
    unfold ofJson at h
    dsimp only at h
    split at h
    next members hparse =>
      obtain ⟨pattern, e, hstop, he⟩ := (ofMembers_unrefused_iff_of_parse hparse).mp ⟨h, hunrefused⟩
      exact .pattern hstop he
    · cases h
      exact absurd rfl (hunrefused _ _)
    · cases h
      exact absurd rfl (hunrefused _ _)
    next hparse =>
      cases h
      exact .longNumber hparse
  · intro h
    cases h with
    | longNumber hparse => exact ⟨by simp only [ofJson, hparse], by simp [Unrefused]⟩
    | pattern hstop he =>
      have ⟨members, _, _, _, hparse, _⟩ := hstop
      simp only [ofJson, hparse]
      exact (ofMembers_unrefused_iff_of_parse hparse).mpr ⟨_, _, hstop, he⟩

end Grammar

/-! ## Bytes that are not text -/

namespace FileTree

variable {files : FileTree} {path : Path}

/-- A path that leads nowhere meets a file on its way, or nothing. -/
theorem fault_of_find {fault : Fault} (h : files.find path = .error fault) :
    fault = .notDirectory ∨ fault = .fileNotFound := by
  unfold find locate at h
  cases hwalk : files.walk [] (files.base.join path).names with
  | error fault' =>
    rw [hwalk] at h
    cases h
    exact fault_of_walk hwalk
  | ok names =>
    rw [hwalk] at h
    simp only [bind, Except.bind] at h
    split at h <;> cases h
    exact Or.inr rfl

/-- A file is no text exactly if its bytes are none. -/
theorem readText_eq_notText_iff : files.readText path = .error .notText ↔
    ∃ bytes, files.find path = .ok (.file bytes) ∧ ¬ bytes.IsValidUTF8 := by
  unfold readText read
  cases hfind : files.find path with
  | error fault => rcases fault_of_find hfind with rfl | rfl <;> simp [bind, Except.bind]
  | ok node =>
    cases node with
    | directory => simp [bind, Except.bind, throw, throwThe, MonadExceptOf.throw]
    | file bytes =>
      by_cases hbytes : bytes.IsValidUTF8
      · obtain ⟨text, htext⟩ := Text.exists_ofBytes? hbytes
        simp [bind, Except.bind, pure, Except.pure, htext, hbytes]
      · simp [bind, Except.bind, pure, Except.pure, Text.ofBytes?_eq_none hbytes, hbytes, throw,
          throwThe, MonadExceptOf.throw]

end FileTree

namespace Registry

open Grammar (Fails Unrefused)

variable {contributions : List Contribution} {scopeName text : String} {c : Contribution}
  {r : Registry} {files : FileTree} {grammar : Grammar} {fault : Fault}

/-! ## The first contribution for a scope name -/

/-- Of the contributions for a scope name this one comes first. -/
def IsFirst (contributions : List Contribution) (scopeName : String) (c : Contribution) : Prop :=
  c.scopeName = scopeName ∧ ∃ before after, contributions = before ++ c :: after ∧
    ∀ d ∈ before, d.scopeName ≠ scopeName

/-- There is no contribution for a scope name. -/
def Uncontributed (contributions : List Contribution) (scopeName : String) : Prop :=
  ∀ c ∈ contributions, c.scopeName ≠ scopeName

/-- The contribution that is taken is the first one for the scope. -/
theorem contributionFor?_eq_some_iff :
    r.contributionFor? scopeName = some c ↔ IsFirst r.contributions scopeName c := by
  simp [contributionFor?, IsFirst, List.find?_eq_some_iff_append]

theorem contributionFor?_eq_none_iff :
    r.contributionFor? scopeName = none ↔ Uncontributed r.contributions scopeName := by
  simp [contributionFor?, Uncontributed]

/-- Once there is a first one it stays the first. -/
theorem IsFirst.append (h : IsFirst contributions scopeName c) (more : List Contribution) :
    IsFirst (contributions ++ more) scopeName c := by
  obtain ⟨hname, before, after, rfl, hbefore⟩ := h
  exact ⟨hname, before, after ++ more, by simp, hbefore⟩

/-- To give the grammar of a scope name, the registry reads the file of a contribution. -/
structure Reads (r : Registry) (scopeName : String) (c : Contribution) : Prop where
  named : scopeName ≠ ""
  unread : r.loaded.lookup scopeName = none
  first : IsFirst r.contributions scopeName c

theorem mem_loaded_of_lookUp {l : Loaded} (h : r.lookUp scopeName = .loaded l) :
    (scopeName, l) ∈ r.loaded := by
  unfold lookUp at h
  split at h
  · cases h
  · split at h
    next hl =>
      cases h
      exact mem_of_lookup hl
    · split at h <;> cases h

/-- A scope is read anew exactly if it has a contribution and no grammar yet. -/
theorem lookUp_eq_contributed_iff : r.lookUp scopeName = .contributed c ↔ r.Reads scopeName c := by
  unfold lookUp
  constructor
  · intro h
    split at h
    · cases h
    next hnamed =>
      split at h
      · cases h
      next hunread =>
        split at h <;> cases h
        next hfirst => exact ⟨hnamed, hunread, contributionFor?_eq_some_iff.mp hfirst⟩
  · rintro ⟨hnamed, hunread, hfirst⟩
    rw [if_neg hnamed, hunread, contributionFor?_eq_some_iff.mpr hfirst]

/-- A scope is unknown if it is empty, or has neither a grammar nor a contribution. -/
theorem lookUp_eq_unknown_iff : r.lookUp scopeName = .unknown ↔
    scopeName = "" ∨
      r.loaded.lookup scopeName = none ∧ Uncontributed r.contributions scopeName := by
  unfold lookUp
  constructor
  · intro h
    split at h
    next hname => exact Or.inl hname
    · split at h
      · cases h
      next hunread =>
        split at h
        · cases h
        next hnone => exact Or.inr ⟨hunread, contributionFor?_eq_none_iff.mp hnone⟩
  · rintro (hname | ⟨hunread, hnone⟩)
    · rw [if_pos hname]
    · rw [hunread, contributionFor?_eq_none_iff.mpr hnone]
      split <;> rfl

/-! ## Reading its file -/

/-- The file of a contribution says what the grammar is. -/
def Says (files : FileTree) (c : Contribution) (grammar : Grammar) : Prop :=
  ∃ text, files.Holds c.path text ∧ Grammar.ofJson c.path.toString (.str text) = .ok grammar

/-- Why reading the file of a contribution fails otherwise than as a failed load: its path cannot be
that of a file, or its bytes are not UTF-8, or its text makes reading a grammar fail. -/
inductive Escapes (files : FileTree) (c : Contribution) : Fault → Prop
  | path (h : c.path.usable = false) : Escapes files c .malformed
  | notText {bytes : ByteArray} (hpath : c.path.usable = true)
      (h : files.find c.path = .ok (.file bytes)) (hbytes : ¬ bytes.IsValidUTF8) :
      Escapes files c .notText
  | text {text : String} {fault : Fault} (hpath : c.path.usable = true)
      (h : files.Holds c.path text) (hfails : Fails text fault) : Escapes files c fault

private theorem readGrammar_of_unusable (h : c.path.usable = false) :
    readGrammar files c = .error .malformed := by
  rw [readGrammar, h]
  rfl

private theorem readGrammar_of_usable (h : c.path.usable = true) :
    readGrammar files c = (do
      let text ← (files.readText c.path).mapError (ofFile c.path.toString)
      (Grammar.ofJson c.path.toString (.str text)).mapError ofGrammar) := by
  rw [readGrammar, h]
  rfl

/-- A file that holds a text gives the grammar of the text. -/
theorem readGrammar_of_holds (hpath : c.path.usable = true) (h : files.Holds c.path text) :
    readGrammar files c =
      (Grammar.ofJson c.path.toString (.str text)).mapError ofGrammar := by
  rw [readGrammar_of_usable hpath, FileTree.readText_eq_ok_iff.mpr h]
  rfl

/-- What reading the file of a contribution comes to: its path is refused, or no text is read, or
the grammar in the text is. -/
theorem readGrammar_cases (files : FileTree) (c : Contribution) :
    (c.path.usable = false ∧ readGrammar files c = .error .malformed) ∨
    (∃ fault, c.path.usable = true ∧ files.readText c.path = .error fault ∧
      readGrammar files c = .error (ofFile c.path.toString fault)) ∨
    ∃ text, c.path.usable = true ∧ files.Holds c.path text ∧ readGrammar files c =
      (Grammar.ofJson c.path.toString (.str text)).mapError ofGrammar := by
  cases hpath : c.path.usable with
  | false => exact Or.inl ⟨rfl, readGrammar_of_unusable hpath⟩
  | true =>
    refine Or.inr ?_
    cases htext : files.readText c.path with
    | error fault =>
      refine Or.inl ⟨fault, rfl, rfl, ?_⟩
      rw [readGrammar_of_usable hpath, htext]
      rfl
    | ok text =>
      have hholds := FileTree.readText_eq_ok_iff.mp htext
      exact Or.inr ⟨text, rfl, hholds, readGrammar_of_holds hpath hholds⟩

theorem says_of_readGrammar (h : readGrammar files c = .ok grammar) : Says files c grammar := by
  rcases readGrammar_cases files c with
    ⟨-, hread⟩ | ⟨fault, -, -, hread⟩ | ⟨text, -, hholds, hread⟩
  · cases hread.symm.trans h
  · cases hread.symm.trans h
  · exact ⟨text, hholds, mapError_eq_ok.mp (hread.symm.trans h)⟩

private theorem ofFile_of_ne {path : String} (h : fault ≠ .notText) :
    ofFile path fault = .load (.unreadableGrammar path) := by
  unfold ofFile
  split
  · exact absurd rfl h
  · rfl

private theorem ofGrammar_eq_self (h : Unrefused fault) : ofGrammar fault = fault := by
  unfold ofGrammar
  split
  · exact absurd rfl (h _ _)
  · rfl

/-- A fault that is not one of loading was none of a grammar before. -/
theorem unrefused_of_ofGrammar {fault' : Fault} (h : ofGrammar fault = fault')
    (hload : ∀ cause, fault' ≠ .load cause) : fault = fault' ∧ Unrefused fault := by
  unfold ofGrammar at h
  split at h
  · cases h
    exact absurd rfl (hload _)
  next hunrefused => exact ⟨h, hunrefused⟩

/-- Bytes that are not text are what is not foreseen of a file. -/
theorem ofFile_escapes {path : String} (h : ∀ cause, ofFile path fault ≠ .load cause) :
    fault = .notText := by
  by_contra hne
  exact h _ (ofFile_of_ne hne)

/-- What goes through a load as no load error: bytes that are no text, and what a grammar lets
through. -/
theorem readGrammar_escapes_iff :
    readGrammar files c = .error fault ∧ (∀ cause, fault ≠ .load cause) ↔
      Escapes files c fault := by
  constructor
  · rintro ⟨h, hload⟩
    -- a fault that is none of loading is of the path, of the bytes or of the text
    rcases readGrammar_cases files c with
      ⟨hpath, hread⟩ | ⟨fault', hpath, htext, hread⟩ | ⟨text, hpath, hholds, hread⟩
    · cases hread.symm.trans h
      exact .path hpath
    · cases hread.symm.trans h
      cases ofFile_escapes hload
      obtain ⟨bytes, hfind, hinvalid⟩ := FileTree.readText_eq_notText_iff.mp htext
      exact .notText hpath hfind hinvalid
    · obtain ⟨fault', hgrammar, hfault⟩ := mapError_eq_error.mp (hread.symm.trans h)
      obtain ⟨rfl, hunrefused⟩ := unrefused_of_ofGrammar hfault hload
      exact .text hpath hholds ((Grammar.ofJson_unrefused_iff _).mp ⟨hgrammar, hunrefused⟩)
  · intro h
    cases h with
    | path hpath => exact ⟨readGrammar_of_unusable hpath, by simp⟩
    | notText hpath hfind hbytes =>
      refine ⟨?_, by simp⟩
      rw [readGrammar_of_usable hpath, FileTree.readText_eq_notText_iff.mpr ⟨_, hfind, hbytes⟩]
      rfl
    | text hpath hholds hfails =>
      obtain ⟨hgrammar, hunrefused⟩ := (Grammar.ofJson_unrefused_iff c.path.toString).mpr hfails
      refine ⟨?_, hfails.not_load⟩
      rw [readGrammar_of_holds hpath hholds]
      exact mapError_eq_error.mpr ⟨fault, hgrammar, ofGrammar_eq_self hunrefused⟩

/-! ## Asking for a grammar -/

/-- A load fails exactly if the file that it reads does. -/
theorem load_eq_error_iff : (r.load files scopeName).1 = .error fault ↔
    ∃ c, r.Reads scopeName c ∧ readGrammar files c = .error fault := by
  unfold load
  cases hlookUp : r.lookUp scopeName with
  | loaded l => simp [← lookUp_eq_contributed_iff, hlookUp]
  | unknown => simp [← lookUp_eq_contributed_iff, hlookUp]
  | contributed c =>
    simp only [← lookUp_eq_contributed_iff, hlookUp, Lookup.contributed.injEq, exists_eq_left']
    cases readGrammar files c <;> simp

/-- A load gives nothing exactly for a scope that is unknown. -/
theorem load_eq_none_iff : (r.load files scopeName).1 = .ok none ↔
    scopeName = "" ∨
      r.loaded.lookup scopeName = none ∧ Uncontributed r.contributions scopeName := by
  rw [← lookUp_eq_unknown_iff]
  unfold load
  cases hlookUp : r.lookUp scopeName with
  | loaded l => simp
  | unknown => simp
  | contributed c => cases hread : readGrammar files c <;> simp [hread]

/-- There is no grammar for the empty scope name, and none for one that has not been read before and
to which nothing is contributed. Asking for a grammar otherwise gives one or is a failed load,
unless the file that is read for it is one of those that are not foreseen; then it fails for the
reason that makes it such a file. -/
theorem load_outcomes (r : Registry) (files : FileTree) (scopeName : String) :
    let outcome := (r.load files scopeName).1
    (outcome = .ok none ↔ scopeName = "" ∨
      r.loaded.lookup scopeName = none ∧ Uncontributed r.contributions scopeName) ∧
    ((∃ found, outcome = .ok found) ∨ (∃ cause, outcome = .error (.load cause)) ↔
      ¬ ∃ c fault, r.Reads scopeName c ∧ Escapes files c fault) ∧
    ∀ fault, outcome = .error fault ∧ (∀ cause, fault ≠ .load cause) ↔
      ∃ c, r.Reads scopeName c ∧ Escapes files c fault := by
  intro outcome
  -- a fault that escapes is one of reading, as looking up has none
  have hescapes : ∀ fault, outcome = .error fault ∧ (∀ cause, fault ≠ .load cause) ↔
      ∃ c, r.Reads scopeName c ∧ Escapes files c fault := by
    intro fault
    simp only [← readGrammar_escapes_iff, outcome, load_eq_error_iff, exists_and_right,
      ← and_assoc]
  refine ⟨load_eq_none_iff, ?_, hescapes⟩
  constructor
  · rintro h ⟨c, fault, hreads, hfault⟩
    obtain ⟨herror, hload⟩ := (hescapes fault).mpr ⟨c, hreads, hfault⟩
    rcases h with ⟨found, hok⟩ | ⟨cause, hcause⟩
    · cases hok.symm.trans herror
    · exact hload cause (Except.error.inj (herror.symm.trans hcause))
  · intro hnone
    cases houtcome : outcome with
    | ok found => exact Or.inl ⟨found, rfl⟩
    | error fault =>
      by_contra hnot
      obtain ⟨c, hreads, hfault⟩ := (hescapes fault).mp ⟨houtcome, fun cause hcause =>
        hnot (Or.inr ⟨cause, congrArg _ hcause⟩)⟩
      exact hnone ⟨c, fault, hreads, hfault⟩

/-- A registry with one contribution. -/
def lone : Registry := { contributions := [⟨"s", ⟨"/", ["g"]⟩, none⟩] }

/-- Its file. -/
def loneFile (bytes : ByteArray) : FileTree := { entries := [(["g"], .file bytes)] }

/-- A byte that is not UTF-8, or a number of repetitions that is too large, makes asking for a
grammar fail otherwise than as a failed load. -/
theorem unforeseen_escape :
    let large := "\x7b\"scopeName\":\"s\",\"patterns\":" ++
      "[\x7b\"match\":\"x\x7b4294967295\x7d\"\x7d]\x7d"
    (lone.load (loneFile ⟨#[0xff]⟩) "s").1 = .error .notText ∧
      (lone.load (loneFile (Text.toBytes large)) "s").1 = .error .unbounded ∧
      ∀ cause, Fault.notText ≠ .load cause ∧ Fault.unbounded ≠ .load cause := by
  intro large
  refine ⟨fault?_eq_some_iff.mp (by decide +kernel), fault?_eq_some_iff.mp (by decide +kernel), ?_⟩
  simp

end Registry

end Conceal
