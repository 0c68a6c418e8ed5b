import Conceal.Proofs.Settings.Loading
import Conceal.Proofs.Settings.Normalizing

/-!
Which sections can be brought into range once they are read. Whatever is given for the pause, it
stands for a number, which is brought between the bounds, or for none, and then the default holds.
An infinite number alone is not provided for: with it the section cannot be used at all. Main
statement: `normalized_unless_endless`.
-/

namespace Conceal

open Number (Exact)

namespace Settings

open Json (Members)

/-! ## The pause -/

/-- The whole number that a value stands for: a truth value for one or zero, a fractional number for
its whole part, a text for the number that it writes. -/
inductive StandsFor : Json → Int → Prop
  | yes : StandsFor (.bool true) 1
  | no : StandsFor (.bool false) 0
  | whole (i : Int) : StandsFor (.int i) i
  | fraction {x : Float} {negative : Bool} {m n : Nat} {q : Int}
      (hx : Exact.ofFloat x = .finite negative m q)
      (hlow : n * Exact.denominator q ≤ Exact.numerator m q)
      (hhigh : Exact.numerator m q < (n + 1) * Exact.denominator q) :
      StandsFor (.float x) (Exact.signed negative n)
  | text {s : String} {i : Int} (h : Number.readInteger s = some i) : StandsFor (.str s) i

/-- Is the value an infinite number, of either sign? -/
def Endless (value : Json) : Prop :=
  ∃ x negative, value = .float x ∧ Exact.ofFloat x = .infinite negative

/-- The pause that comes of what is given for it, if anything is. -/
inductive PauseFrom : Option Json → Int → Prop
  | absent : PauseFrom none 50
  | number {value : Json} {i : Int} (h : StandsFor value i) :
      PauseFrom (some value) (max 10 (min 2000 i))
  | other {value : Json} (h : ∀ i, ¬ StandsFor value i) : PauseFrom (some value) 50

private theorem denominator_pos (q : Int) : 0 < Exact.denominator q := Nat.pow_pos (by decide)

/-- A float is truncated to the integer that it stands for. -/
theorem truncateFloat_eq_ok_iff {x : Float} {i : Int} :
    Number.truncateFloat x = .ok i ↔ StandsFor (.float x) i := by
  rw [Number.truncateFloat]
  constructor
  · intro h
    cases hx : Exact.ofFloat x with
    | finite negative m q =>
      rw [hx] at h
      cases h
      refine .fraction hx (Nat.div_mul_le_self _ _) ?_
      exact Nat.lt_mul_of_div_lt (Nat.lt_succ_self _) (denominator_pos q)
    | _ => simp [hx, Exact.truncate] at h
  · rintro ⟨⟩
    rename_i hlow hhigh hx
    rw [hx, Exact.truncate, Nat.div_eq_of_lt_le hlow hhigh]

/-- A value is read as an integer exactly if it stands for that integer. -/
theorem toInteger_eq_ok_iff {value : Json} {i : Int} :
    value.toInteger = .ok i ↔ StandsFor value i := by
  constructor
  · intro h
    cases value with
    | bool b => cases b <;> cases h <;> constructor
    | int n =>
      cases h
      exact .whole _
    | float x => exact truncateFloat_eq_ok_iff.mp h
    | str s =>
      rw [Json.toInteger] at h
      split at h <;> cases h
      exact .text ‹_›
    | _ => cases h
  · intro h
    cases h with
    | fraction hx hlow hhigh => exact truncateFloat_eq_ok_iff.mpr (.fraction hx hlow hhigh)
    | text h => rw [Json.toInteger, h]
    | _ => rfl

/-- Reading an integer fails for what is endless, and for nothing else. -/
theorem toInteger_eq_unbounded_iff {value : Json} :
    value.toInteger = .error .unbounded ↔ Endless value := by
  constructor
  · intro h
    cases value with
    | float x =>
      rw [Json.toInteger, Number.truncateFloat] at h
      cases hx : Exact.ofFloat x with
      | infinite negative => exact ⟨x, negative, rfl, hx⟩
      | _ => simp [hx, Exact.truncate] at h
    | str s =>
      rw [Json.toInteger] at h
      split at h <;> cases h
    | _ => cases h
  · rintro ⟨x, negative, rfl, hx⟩
    rw [Json.toInteger, Number.truncateFloat, hx, Exact.truncate]

/-- The pause fails for what is endless, and for nothing else. -/
theorem debounceOf_eq_error_iff {value : Json} {fault : Fault} :
    debounceOf value = .error fault ↔ fault = .unbounded ∧ Endless value := by
  rw [← toInteger_eq_unbounded_iff, debounceOf]
  split
  next hvalue => simp [hvalue]
  next hvalue => simp [hvalue, eq_comm]
  next hbounded hvalue => simpa [hvalue] using fun _ => hbounded

/-- What the pause becomes: the integer within its bounds, or the default. -/
theorem pauseFrom_debounceOf {value : Json} {pause : Int} (h : debounceOf value = .ok pause) :
    PauseFrom (some value) pause := by
  unfold debounceOf at h
  split at h <;> cases h
  next i hvalue => exact .number (toInteger_eq_ok_iff.mp hvalue)
  next fault hvalue =>
    refine .other fun i hi => ?_
    rw [toInteger_eq_ok_iff.mpr hi] at hvalue
    cases hvalue

/-! ## The section -/

variable {raw : Json} {s : Members}

/-- A section fails to be brought into range for one reason. -/
theorem normalize_eq_error_iff (hraw : raw.Proper) {fault : Fault} :
    normalize raw = .error fault ↔ fault = .unbounded ∧
      ∃ value, Members.get? (membersOf raw) "debounce_ms" = some value ∧ Endless value := by
  have hnormalize : normalize raw = .error fault ↔
      debounceOf ((merged raw).get "debounce_ms") = .error fault := by
    refine bind_eq_error.trans ⟨?_, Or.inl⟩
    rintro (h | ⟨_, _, h⟩)
    · exact h
    · cases h
  rw [hnormalize, debounceOf_eq_error_iff, Members.get, get?_merged hraw]
  cases Members.get? (membersOf raw) "debounce_ms" with
  | some value => simp
  | none =>
    -- the default is a whole number
    have hdefault : ¬ Endless (.int defaultDebounce) := by
      rintro ⟨x, negative, h, -⟩
      cases h
    have hget : Members.get? defaults "debounce_ms" = some (.int defaultDebounce) := rfl
    simp [hget, hdefault]

/-- The pause of the normalized settings comes of what was written. -/
theorem pauseFrom_normalize (hraw : raw.Proper) (h : normalize raw = .ok s) :
    ∃ pause, s.get? "debounce_ms" = some (.int pause) ∧
      PauseFrom (Members.get? (membersOf raw) "debounce_ms") pause := by
  obtain ⟨pause, hpause, rfl⟩ := normalize_eq_ok_iff.mp h
  refine ⟨pause, get?_settled _ _ .debounce, ?_⟩
  rw [Members.get, get?_merged hraw] at hpause
  cases hgiven : Members.get? (membersOf raw) "debounce_ms" with
  | some value =>
    rw [hgiven] at hpause
    exact pauseFrom_debounceOf hpause
  | none =>
    rw [hgiven] at hpause
    cases hpause.symm.trans (debounceOf_int (i := 50) (by decide) (by decide))
    exact .absent

end Settings

namespace SettingsStore

open Settings (sectionKey Endless PauseFrom)

variable {files : FileTree} {path : Option Path} {members : Json.Members}

/-- In a section that is found every key comes once. -/
theorem Finds.proper (h : Finds .lenient files path members) : (Json.obj members).Proper := by
  cases h with
  | noPath => exact Json.proper_nil
  | missing => exact Json.proper_nil
  | absent => exact Json.proper_nil
  | present _ htext hkey =>
    have hroot := Json.proper_parse (Json.parse_eq_ok_iff.mpr htext)
    exact (Json.proper_obj.mp hroot).2 _ hkey

/-- Whatever states the file of a store goes through: as long as none of them has a section, the one
in effect has the default pause. Once one of them had, and later ones could not be used, the section
in effect is that one with every field in range, where the pause is what is given for it, brought
between the bounds, or the default if nothing is given or if that is no number. This fails exactly
if an infinite number is given for the pause, and then for that reason only. -/
theorem normalized_unless_endless (path : Option Path) :
    (∀ states, (∀ files ∈ states, ∃ fault, Refuses .lenient files path fault) →
      ∃ s, (({ path } : SettingsStore).loads states).normalized = .ok s ∧
        s.get? "debounce_ms" = some (.int 50)) ∧
    ∀ before files after members, Finds .lenient files path members →
      (∀ f ∈ after, ∃ fault, Refuses .lenient f path fault) →
      let store := ({ path } : SettingsStore).loads (before ++ files :: after)
      let endless := ∃ value, members.get? "debounce_ms" = some value ∧ Endless value
      (∀ fault, store.normalized = .error fault ↔ fault = .unbounded ∧ endless) ∧
      (¬ endless → ∃ s pause, store.normalized = .ok s ∧
        s.get? "debounce_ms" = some (.int pause) ∧
        PauseFrom (members.get? "debounce_ms") pause) := by
  refine ⟨fun states h => ?_, fun before files after members hfinds h => ?_⟩
  · -- nothing was ever loaded, so that the defaults are normalized
    rw [normalized, loaded_loads rfl h]
    exact ⟨_, rfl, rfl⟩
  · intro store endless
    have hproper := hfinds.proper
    have herror : ∀ fault, store.normalized = .error fault ↔ fault = .unbounded ∧ endless := by
      intro fault
      rw [normalized, loaded_of_finds hfinds h]
      exact Settings.normalize_eq_error_iff hproper
    refine ⟨herror, fun hnot => ?_⟩
    cases hs : store.normalized with
    | error fault => exact absurd ((herror fault).mp hs).2 hnot
    | ok s =>
      rw [normalized, loaded_of_finds hfinds h] at hs
      obtain ⟨pause, hget, hpause⟩ := Settings.pauseFrom_normalize hproper hs
      exact ⟨s, pause, rfl, hget, hpause⟩

/-! ## Files that only set the pause -/

/-- The text of an object with one key. -/
def keyedText (key : String) (value : List Char) : List Char :=
  '\x7b' :: ('"' :: (key.toList ++ '"' :: ':' :: value) ++ ['\x7d'])

private theorem spells_keyedText {d : Json.Dialect} {value : Json} {text : List Char}
    (h : Json.Spells d value text) (key : String) (hkey : key.toList.all Json.isPlain = true) :
    Json.Spells d (.obj [(key, value)]) (keyedText key text) :=
  .obj (.one (h.member key hkey))

/-- The text of a settings file with a pause. -/
def pauseText (pause : List Char) : String :=
  String.ofList (keyedText sectionKey (keyedText "debounce_ms" pause))

theorem finds_pauseText {d : Json.Dialect} {value : Json} {pause : List Char}
    (h : Json.Spells d value pause) (hpause : '\r' ∉ pause) :
    Finds d (SettingsWatcher.holding (pauseText pause)) SettingsWatcher.settingsPath
      [("debounce_ms", value)] := by
  have hsection := spells_keyedText h "debounce_ms" (by decide)
  have hroot := spells_keyedText hsection sectionKey (by decide)
  have htext : Json.TextOf d (.obj [(sectionKey, .obj [("debounce_ms", value)])])
      (pauseText pause) := by
    rw [Json.TextOf, pauseText, String.toList_ofList]
    exact hroot.padded
  refine .present (holds_holding _ ?_) htext List.mem_cons_self
  simp [pauseText, keyedText, sectionKey, hpause]

/-- A pause that is no number counts as none, also after the file has become a directory. -/
theorem no_number_defaults :
    let path := SettingsWatcher.settingsPath
    let files := SettingsWatcher.holding (pauseText ['N', 'a', 'N'])
    let broken : FileTree := { entries := [(path.names, .directory)] }
    Finds .lenient files path [("debounce_ms", .float (0.0 / 0.0))] ∧
      Refuses .lenient broken path .unreadable ∧
      ¬ Endless (.float (0.0 / 0.0)) ∧
      ∃ s, (({ path } : SettingsStore).loads [files, broken]).normalized = .ok s ∧
        s.get? "debounce_ms" = some (.int 50) := by
  intro path files broken
  have hfinds := finds_pauseText (Json.Spells.nan (d := .lenient) rfl) (by decide)
  have hrefuses : Refuses .lenient broken path .unreadable := .directory rfl
  have hnan : Exact.ofFloat (0.0 / 0.0) = .nan := by decide +kernel
  -- what is no number is not infinite either
  have hendless : ¬ Endless (.float (0.0 / 0.0)) := by
    rintro ⟨x, negative, h, hx⟩
    cases h
    cases hnan.symm.trans hx
  obtain ⟨-, hrun⟩ := normalized_unless_endless path
  obtain ⟨-, hok⟩ := hrun [] files [broken] _ hfinds fun f hf =>
    ⟨_, List.mem_singleton.mp hf ▸ hrefuses⟩
  obtain ⟨s, pause, hs, hget, hpause⟩ := hok fun ⟨value, hvalue, h⟩ =>
    hendless (Option.some.inj hvalue ▸ h)
  refine ⟨hfinds, hrefuses, hendless, s, hs, ?_⟩
  cases hpause with
  | other => exact hget
  | number h =>
    cases h with
    | fraction hx => cases hnan.symm.trans hx

/-- The text of a number that is beyond all floats. -/
def hugeText : List Char := ['1', 'e', '9', '9', '9']

private theorem spells_hugeText (d : Json.Dialect) :
    Json.Spells d (.float (1.0 / 0.0)) hugeText := by
  have hwhole : Json.Whole ['1'] := .digits ⟨by decide, by simp⟩ (by decide)
  have hpower : Json.Power ('e' :: ([] ++ ['9', '9', '9'])) (some 999) :=
    .some (.inl rfl) .none ⟨by decide, by simp⟩
  have hvalue : Json.floatOf false ['1'] [] (some 999) = .float (1.0 / 0.0) := by
    have hone : Number.digitsValue (Json.digitValues ['1']) = 1 := by decide
    have hnearest : Number.nearestFloat 1 999 = 1.0 / 0.0 := by
      rw [Number.nearestFloat, if_neg (by decide)]
      exact if_pos (by decide +kernel)
    simp [Json.floatOf, hone, hnearest]
  rw [← hvalue]
  exact .number (.float hwhole .none hpower (.inr rfl))

/-- Such a number is in the notation as such, and the pause becomes infinite: the file is loaded,
but its section cannot be used. -/
theorem huge_pause_escapes :
    let path := SettingsWatcher.settingsPath
    let files := SettingsWatcher.holding (pauseText hugeText)
    let store := ({ path } : SettingsStore).load files
    Finds .strict files path [("debounce_ms", .float (1.0 / 0.0))] ∧
      store.lastFault = none ∧ store.normalized = .error .unbounded := by
  intro path files store
  have hfinds (d : Json.Dialect) : Finds d files path [("debounce_ms", .float (1.0 / 0.0))] :=
    finds_pauseText (spells_hugeText d) (by decide)
  have hendless : Endless (.float (1.0 / 0.0)) := ⟨_, false, rfl, by decide +kernel⟩
  have hload : store = { path, loaded := [("debounce_ms", .float (1.0 / 0.0))] } :=
    load_of_finds rfl (hfinds .lenient)
  rw [hload]
  refine ⟨hfinds .strict, rfl, ?_⟩
  exact (Settings.normalize_eq_error_iff (hfinds .lenient).proper).mpr ⟨rfl, _, rfl, hendless⟩

end SettingsStore

end Conceal
