import Conceal.Proofs.Json.Equality
import Conceal.Settings.Watcher

/-!
What a watcher passes on. Each time the file is read again, the section that it holds is passed on
unless it is the same as the one passed on before; a file that cannot be used changes nothing. The
comparison takes no notice of the kinds of numbers, so a change of kind alone is kept back. Main
statement: `reload_delivers`.
-/

namespace Conceal

open Json (Proper Agree SameValue DiffersInKind Equal)

namespace Settings

theorem proper_defaults : (Json.obj defaults).Proper := by
  simp [defaults, defaultRules, texts, Json.proper_obj, Json.proper_arr, Proper.bool, Proper.int,
    Proper.str]

theorem proper_rulesOf {value : Json} (h : value.Proper) : (Json.arr (rulesOf value)).Proper := by
  cases h with
  | arr h => exact .arr fun v hv => h v (List.mem_of_mem_filter hv)
  | _ => exact .arr (by simp [rulesOf])

theorem proper_membersOf {value : Json} (h : value.Proper) : ∀ m ∈ membersOf value, m.2.Proper := by
  cases h with
  | obj _ h => exact h
  | _ => simp [membersOf]

/-- Bringing a section into range gives no key a second time. -/
theorem proper_normalize {raw : Json} {members : Json.Members} (hraw : raw.Proper)
    (h : normalize raw = .ok members) : (Json.obj members).Proper := by
  obtain ⟨debounce, _, h⟩ := bind_eq_ok.mp h
  have hmerged := proper_defaults.insertAll (proper_membersOf hraw)
  rw [← Except.ok.inj h]
  exact (((hmerged.insert (.bool _) _).insert (.int _) _).insert (.str _) _).insert
    (proper_rulesOf (hmerged.get "masks")) _

end Settings

namespace SettingsStore

variable {s : SettingsStore} {files : FileTree}

/-- What a store finds: the section of its file, an empty one without a file, or why the file cannot
be used. -/
def found (s : SettingsStore) (files : FileTree) : Except SettingsFault Json.Members :=
  match s.path with
  | none => .ok []
  | some path => readSection files path

/-- A load that finds a section takes it whole and forgets the fault of the last one. -/
theorem load_of_ok {members : Json.Members} (h : s.found files = .ok members) :
    s.load files = { s with loaded := members, lastFault := none } := by
  unfold found at h
  unfold load
  cases hpath : s.path with
  | none =>
    rw [hpath] at h
    cases h
    rfl
  | some path =>
    simp only [hpath] at h ⊢
    rw [h]

/-- A load that finds none keeps the section and notes the fault. -/
theorem load_of_error {fault : SettingsFault} (h : s.found files = .error fault) :
    s.load files = { s with lastFault := some fault } := by
  unfold found at h
  unfold load
  cases hpath : s.path with
  | none =>
    rw [hpath] at h
    cases h
  | some path =>
    simp only [hpath] at h ⊢
    rw [h]

theorem path_load (s : SettingsStore) (files : FileTree) : (s.load files).path = s.path := by
  unfold load
  split
  · rfl
  · split <;> rfl

theorem found_congr {s' : SettingsStore} (h : s.path = s'.path) :
    s.found files = s'.found files := by
  unfold found
  rw [h]

/-- The section of a file has distinct keys if the file's value has. -/
theorem proper_sectionOf {path : String} {value : Json} {members : Json.Members}
    (hvalue : value.Proper) (h : sectionOf path value = .ok members) :
    (Json.obj members).Proper := by
  unfold sectionOf at h
  split at h
  next root =>
    split at h
    next found hfound =>
      cases h
      cases hget : Json.Members.get? root Settings.sectionKey with
      | none =>
        rw [hget] at hfound
        cases hfound
        exact Json.proper_nil
      | some value =>
        rw [hget] at hfound
        cases hfound
        exact (Json.proper_obj.mp hvalue).2 _ (mem_of_lookup hget)
    · cases h
  · cases h

/-- What a store finds has no key twice. -/
theorem proper_found {members : Json.Members} (h : s.found files = .ok members) :
    (Json.obj members).Proper := by
  unfold found at h
  split at h
  · cases h
    exact Json.proper_nil
  · unfold readSection at h
    split at h
    · split at h
      · split at h
        next hparse => exact proper_sectionOf (Json.proper_parse hparse) h
        · cases h
      · cases h
    · cases h
      exact Json.proper_nil

end SettingsStore

namespace SettingsWatcher

variable {w : SettingsWatcher} {files : FileTree}

/-! ## Reading the file again -/

theorem store_syncWatches (w : SettingsWatcher) (files : FileTree) :
    (w.syncWatches files).store = w.store := by
  unfold syncWatches
  split <;> rfl

theorem current_syncWatches (w : SettingsWatcher) (files : FileTree) :
    (w.syncWatches files).current = w.current := by
  unfold syncWatches
  split <;> rfl

/-- Whatever comes of it, the store has read its file. -/
theorem store_reload (w : SettingsWatcher) (files : FileTree) :
    (w.reload files).watcher.store = w.store.load files := by
  unfold reload
  dsimp only
  split
  · rw [store_syncWatches]
  · split
    · rw [store_syncWatches]
    · split <;> rw [store_syncWatches]

/-- What reading the file again leaves in effect and passes on. -/
structure Reloaded.Leaves (r : Reloaded) (current : Json.Members) (emitted : Option Json.Members)
    (fault : Option Fault) : Prop where
  current : r.watcher.current = current
  emitted : r.emitted = emitted
  fault : r.fault = fault

/-- A file that cannot be read delivers nothing, and the settings stay. -/
theorem reload_of_error {fault : SettingsFault} (hfound : w.store.found files = .error fault) :
    (w.reload files).Leaves w.current none none := by
  have hload := SettingsStore.load_of_error hfound
  constructor <;> simp [reload, store_syncWatches, current_syncWatches, hload]

section found

variable {members : Json.Members} (hfound : w.store.found files = .ok members)

include hfound

/-- Settings that cannot be normalized deliver nothing; the fault goes through. -/
theorem reload_of_refused {fault : Fault}
    (hnormal : Settings.normalize (.obj members) = .error fault) :
    (w.reload files).Leaves w.current none (some fault) := by
  have hload := SettingsStore.load_of_ok hfound
  constructor <;>
    simp [reload, store_syncWatches, current_syncWatches, hload, SettingsStore.normalized, hnormal]

variable {updated : Json.Members} (hnormal : Settings.normalize (.obj members) = .ok updated)

include hnormal

/-- Settings that compare as equal deliver nothing. -/
theorem reload_of_same (hsame : (Json.obj updated).same (.obj w.current) = true) :
    (w.reload files).Leaves w.current none none := by
  have hload := SettingsStore.load_of_ok hfound
  constructor <;>
    simp [reload, store_syncWatches, current_syncWatches, hload, SettingsStore.normalized, hnormal,
      hsame]

/-- Settings that differ are delivered and kept. -/
theorem reload_of_not_same (hsame : (Json.obj updated).same (.obj w.current) = false) :
    (w.reload files).Leaves updated (some updated) none := by
  have hload := SettingsStore.load_of_ok hfound
  constructor <;>
    simp [reload, store_syncWatches, current_syncWatches, hload, SettingsStore.normalized, hnormal,
      hsame]

end found

/-- Either nothing is passed on and nothing else takes effect, or a section that was found is passed
on and takes effect. -/
theorem reload_cases (w : SettingsWatcher) (files : FileTree) :
    ((w.reload files).emitted = none ∧ (w.reload files).watcher.current = w.current) ∨
      ∃ members updated, w.store.found files = .ok members ∧
        Settings.normalize (.obj members) = .ok updated ∧
        (w.reload files).emitted = some updated ∧ (w.reload files).watcher.current = updated := by
  cases hfound : w.store.found files with
  | error fault =>
    have h := reload_of_error hfound
    exact Or.inl ⟨h.emitted, h.current⟩
  | ok members =>
    cases hnormal : Settings.normalize (.obj members) with
    | error fault =>
      have h := reload_of_refused hfound hnormal
      exact Or.inl ⟨h.emitted, h.current⟩
    | ok updated =>
      cases hsame : (Json.obj updated).same (.obj w.current) with
      | true =>
        have h := reload_of_same hfound hnormal hsame
        exact Or.inl ⟨h.emitted, h.current⟩
      | false =>
        have h := reload_of_not_same hfound hnormal hsame
        exact Or.inr ⟨members, updated, rfl, hnormal, h.emitted, h.current⟩

/-- The section in effect is the one passed on, or else the one before. -/
theorem current_reload (w : SettingsWatcher) (files : FileTree) :
    (w.reload files).watcher.current = (w.reload files).emitted.getD w.current := by
  rcases reload_cases w files with ⟨hemitted, hcurrent⟩ | ⟨_, _, _, _, hemitted, hcurrent⟩
  · rw [hemitted, hcurrent, Option.getD_none]
  · rw [hemitted, hcurrent, Option.getD_some]

/-- The section in effect never has a key twice. -/
theorem proper_current_reload (h : (Json.obj w.current).Proper) (files : FileTree) :
    (Json.obj (w.reload files).watcher.current).Proper := by
  rcases reload_cases w files with ⟨_, hcurrent⟩ | ⟨_, _, hfound, hnormal, _, hcurrent⟩
  · rwa [hcurrent]
  · rw [hcurrent]
    exact Settings.proper_normalize (SettingsStore.proper_found hfound) hnormal

/-! ## Reading the file again and again -/

/-- The watcher after its file was read again, each time in another state of the files. -/
def reloads (w : SettingsWatcher) (changes : List FileTree) : SettingsWatcher :=
  changes.foldl (fun w files => (w.reload files).watcher) w

/-- The sections that are passed on meanwhile. -/
def delivered : SettingsWatcher → List FileTree → List Json.Members
  | _, [] => []
  | w, files :: rest => (w.reload files).emitted.toList ++ (w.reload files).watcher.delivered rest

/-- The section that was passed on last, or the one that was there at the start. -/
def lastDelivered (w : SettingsWatcher) (changes : List FileTree) : Json.Members :=
  (w.delivered changes).getLast?.getD w.current

/-- The section in effect is the one that was passed on last. -/
theorem current_reloads (w : SettingsWatcher) (changes : List FileTree) :
    (w.reloads changes).current = w.lastDelivered changes := by
  induction changes generalizing w with
  | nil => rfl
  | cons files rest ih =>
    show ((w.reload files).watcher.reloads rest).current = _
    rw [ih, lastDelivered, lastDelivered, delivered, List.getLast?_append, current_reload]
    cases ((w.reload files).watcher.delivered rest).getLast? with
    | some members => rfl
    | none => cases (w.reload files).emitted <;> rfl

theorem reloads_concat (w : SettingsWatcher) (changes : List FileTree) (files : FileTree) :
    w.reloads (changes ++ [files]) = ((w.reloads changes).reload files).watcher := by
  rw [reloads, List.foldl_append]
  rfl

theorem path_reloads (w : SettingsWatcher) (changes : List FileTree) :
    (w.reloads changes).store.path = w.store.path := by
  induction changes generalizing w with
  | nil => rfl
  | cons files rest ih =>
    rw [← SettingsStore.path_load w.store files, ← store_reload]
    exact ih _

/-- The settings keep distinct keys over every sequence of reloads. -/
theorem proper_current_reloads (h : (Json.obj w.current).Proper) (changes : List FileTree) :
    (Json.obj (w.reloads changes).current).Proper := by
  induction changes generalizing w with
  | nil => exact h
  | cons files rest ih => exact ih (proper_current_reload h files)

/-- A watcher starts with the section of its store. -/
theorem start_eq {store : SettingsStore} (h : start store files = .ok w) :
    w.store = store ∧ Settings.normalize (.obj store.loaded) = .ok w.current := by
  obtain ⟨current, hcurrent, h⟩ := bind_eq_ok.mp h
  cases h
  rw [store_syncWatches, current_syncWatches]
  exact ⟨rfl, hcurrent⟩

/-- A store that has read its file has no key twice. -/
theorem proper_load (path : Option Path) (files : FileTree) :
    (Json.obj (({ path } : SettingsStore).load files).loaded).Proper := by
  cases hfound : ({ path } : SettingsStore).found files with
  | error fault =>
    rw [SettingsStore.load_of_error hfound]
    exact Json.proper_nil
  | ok members =>
    rw [SettingsStore.load_of_ok hfound]
    exact SettingsStore.proper_found hfound

theorem lastDelivered_concat (w : SettingsWatcher) (changes : List FileTree) (files : FileTree) :
    w.lastDelivered (changes ++ [files]) =
      ((w.reloads changes).reload files).emitted.getD (w.lastDelivered changes) := by
  rw [← current_reloads, ← current_reloads, reloads_concat, current_reload]

/-- Whatever states a settings file goes through, each time it is read again: a file that cannot be
used passes nothing on and leaves the section in effect, and so does a section that cannot be brought
into range; any other section is passed on unless it is the same as the one passed on last, so that
the one passed on last is then the same as the section that the store holds. That a section is passed
on just when it is not equal to the one before, and that the one passed on last is equal to the one
in the store, holds unless nothing but the kinds of numbers has changed. -/
theorem reload_delivers {path : Option Path} {before : FileTree}
    (hstart : start (({ path } : SettingsStore).load before) before = .ok w)
    (changes : List FileTree) (files : FileTree) :
    let held := Json.obj (w.lastDelivered changes)
    let result := (w.reloads changes).reload files
    let last := Json.obj (w.lastDelivered (changes ++ [files]))
    (∀ fault, ({ path } : SettingsStore).found files = .error fault →
      result.watcher.store.lastFault = some fault ∧ result.emitted = none ∧ last = held ∧
      result.watcher.store.loaded = (w.reloads changes).store.loaded) ∧
    ∀ members, ({ path } : SettingsStore).found files = .ok members →
      result.watcher.store.lastFault = none ∧ result.watcher.store.loaded = members ∧
      (∀ fault, result.watcher.store.normalized = .error fault →
        result.fault = some fault ∧ result.emitted = none ∧ last = held) ∧
      ∀ updated, result.watcher.store.normalized = .ok updated →
        (Agree SameValue (.obj updated) held → result.emitted = none) ∧
        (¬ Agree SameValue (.obj updated) held → result.emitted = some updated) ∧
        Agree SameValue (.obj updated) last ∧
        ((result.emitted = some updated ↔ ¬ Equal (.obj updated) held) ↔
          ¬ DiffersInKind (.obj updated) held) ∧
        (Equal (.obj updated) last ↔ ¬ DiffersInKind (.obj updated) held) := by
  obtain ⟨hstore, hnormal⟩ := start_eq hstart
  have hproper : (Json.obj (w.reloads changes).current).Proper :=
    proper_current_reloads (Settings.proper_normalize (proper_load path before) hnormal) changes
  have hfound : (w.reloads changes).store.found files = ({ path } : SettingsStore).found files := by
    apply SettingsStore.found_congr
    rw [path_reloads, hstore, SettingsStore.path_load]
  intro held result last
  -- what was passed on last is what is held, since both are followed change by change
  have hheld : held = .obj (w.reloads changes).current := by rw [current_reloads]
  have hlast : last = .obj (result.emitted.getD (w.lastDelivered changes)) := by
    rw [← lastDelivered_concat]
  have hstore : result.watcher.store = (w.reloads changes).store.load files := store_reload _ _
  rw [← hfound]
  constructor
  · intro fault hfault
    have hleaves := reload_of_error hfault
    rw [hlast, hleaves.emitted, hstore, SettingsStore.load_of_error hfault]
    exact ⟨rfl, rfl, rfl, rfl⟩
  · intro members hmembers
    rw [hstore, SettingsStore.load_of_ok hmembers]
    refine ⟨rfl, rfl, ?_, ?_⟩
    · -- the file was read, but the section in it cannot be brought into form
      intro fault hnormal
      have hleaves := reload_of_refused hmembers hnormal
      rw [hlast, hleaves.emitted]
      exact ⟨hleaves.fault, rfl, rfl⟩
    · intro updated hnormal
      have hupdated := Settings.proper_normalize (SettingsStore.proper_found hmembers) hnormal
      have hiff := Json.same_iff hupdated hproper
      rw [← hheld] at hiff
      by_cases hagree : Agree SameValue (.obj updated) held
      · -- the section passed on last stays the one that it was
        have hleaves := reload_of_same hmembers hnormal (hheld ▸ hiff.mpr hagree)
        have hequal := Json.equal_iff_of_sameValue hagree
        rw [hlast, hleaves.emitted, Option.getD_none]
        refine ⟨fun _ => rfl, fun hnot => absurd hagree hnot, hagree, ?_, hequal⟩
        rw [hequal]
        simp
      · -- the new section is now the one passed on last
        have hsame := Bool.eq_false_iff.mpr (mt hiff.mp hagree)
        have hleaves := reload_of_not_same hmembers hnormal (hheld ▸ hsame)
        have hself := hupdated.equal_refl
        have hnot : ¬ Equal (.obj updated) held := fun h => hagree (Json.equal_iff.mp h).2
        have hkind : ¬ DiffersInKind (.obj updated) held := fun h => hagree h.1
        rw [hlast, hleaves.emitted, Option.getD_some]
        refine ⟨fun h => absurd h hagree, fun _ => rfl, (Json.equal_iff.mp hself).2, ?_, ?_⟩
        · exact iff_of_true (iff_of_true rfl hnot) hkind
        · exact iff_of_true hself hkind

/-! ## A file with one rule -/

/-- The path of a settings file. -/
def settingsPath : Path := ⟨"", ["s.json"]⟩

/-- A settings file with this text. -/
def holding (text : String) : FileTree where
  entries := [(settingsPath.names, .file (Text.toBytes text))]

/-- A rule with one pattern; how it says whether case is ignored is left open. -/
def ruleText (ignoreCase : String) : String :=
  "\x7b\"symbol_masks\":\x7b\"masks\":[\x7b\"selector\":\"*\",\"patterns\":[\x7b" ++
    "\"pattern\":\"a\",\"replace\":\"x\",\"ignoreCase\":" ++ ignoreCase ++ "\x7d]\x7d]\x7d\x7d"

/-- Where the section says whether case is ignored. -/
def ignoreCaseWay : List (String ⊕ Nat) :=
  [.inl "masks", .inr 0, .inl "patterns", .inr 0, .inl "ignoreCase"]

/-- The section in a text, brought into range. -/
def sectionIn (text : String) : Option Json.Members := do
  let value ← (Json.parse text).toOption
  let members ← (SettingsStore.sectionOf settingsPath.toString value).toOption
  (Settings.normalize (.obj members)).toOption

theorem readText_holding {text : String} (htext : '\r' ∉ text.toList) :
    (holding text).readText settingsPath = .ok text := by
  have hfind : (holding text).find settingsPath = .ok (.file (Text.toBytes text)) := rfl
  simp only [FileTree.readText, FileTree.read, hfind, bind, Except.bind, pure, Except.pure,
    Text.ofBytes?_toBytes htext]

/-- A store finds the section of the text. -/
private theorem found_holding {text : String} (htext : '\r' ∉ text.toList) {p : Json.Members → Bool}
    (h : (sectionIn text).any p = true) : ∃ members updated,
      ({ path := settingsPath } : SettingsStore).found (holding text) = .ok members ∧
      Settings.normalize (.obj members) = .ok updated ∧ p updated = true := by
  have hexists : (holding text).exists? settingsPath = true := rfl
  unfold sectionIn at h
  cases hparse : Json.parse text with
  | error _ => rw [hparse] at h; cases h
  | ok value =>
    have hfound : ({ path := settingsPath } : SettingsStore).found (holding text) =
        SettingsStore.sectionOf settingsPath.toString value := by
      simp only [SettingsStore.found, SettingsStore.readSection, if_pos hexists,
        readText_holding htext, hparse]
    rw [hfound]
    cases hsection : SettingsStore.sectionOf settingsPath.toString value with
    | error _ => simp [hparse, hsection, Except.toOption] at h
    | ok members =>
      cases hnormal : Settings.normalize (.obj members) with
      | error _ => simp [hparse, hsection, hnormal, Except.toOption] at h
      | ok updated =>
        simp only [hparse, hsection, hnormal, Except.toOption, Option.bind_eq_bind,
          Option.bind_some, Option.any_some] at h
        exact ⟨members, updated, rfl, hnormal, h⟩

/-- A watcher starts with the section that its store has read. -/
theorem start_of_found {path : Path} {members current : Json.Members}
    (hfound : ({ path := path } : SettingsStore).found files = .ok members)
    (hnormal : Settings.normalize (.obj members) = .ok current) :
    ∃ w, start (({ path := path } : SettingsStore).load files) files = .ok w ∧
      w.store.path = path ∧ w.current = current := by
  rw [SettingsStore.load_of_ok hfound]
  refine ⟨_, bind_eq_ok.mpr ⟨current, hnormal, rfl⟩, ?_, ?_⟩
  · rw [store_syncWatches]
  · rw [current_syncWatches]

/-- A rule is passed on when its file comes into being. -/
theorem rule_delivered :
    ∃ w updated, start (({ path := settingsPath } : SettingsStore).load {}) {} = .ok w ∧
      (w.reload (holding (ruleText "true"))).emitted = some updated ∧
      Equal (.obj updated) (.obj (w.lastDelivered [holding (ruleText "true")])) := by
  have hnone : ({ path := settingsPath } : SettingsStore).found {} = .ok [] := rfl
  have hrun : (sectionIn (ruleText "true")).any (fun updated =>
      (Settings.normalize (.obj [])).toOption.any fun current =>
        !(Json.obj updated).same (.obj current)) = true := by
    decide +kernel
  obtain ⟨members, updated, hfound, hnormal, hdiffers⟩ := found_holding (by decide +kernel) hrun
  cases hcurrent : Settings.normalize (.obj []) with
  | error _ => rw [hcurrent] at hdiffers; cases hdiffers
  | ok current =>
    rw [hcurrent] at hdiffers
    obtain ⟨w, hstart, _, rfl⟩ := start_of_found hnone hcurrent
    have hnot : ¬ Agree SameValue (.obj updated) (.obj w.current) := by
      intro hagree
      have hsame := Json.same_of_agree
        (Settings.proper_normalize (SettingsStore.proper_found hfound) hnormal)
        (Settings.proper_normalize Json.proper_nil hcurrent) hagree
      simp [Except.toOption, hsame] at hdiffers
    obtain ⟨_, hloaded, _, hsection⟩ :=
      (reload_delivers hstart [] (holding (ruleText "true"))).2 members hfound
    rw [← hloaded] at hnormal
    obtain ⟨_, hpassed, _, _, hequal⟩ := hsection updated hnormal
    exact ⟨w, updated, hstart, hpassed hnot, hequal.mpr fun hkind => hnot hkind.1⟩

/-- The number one is replaced by true, which is another value; yet nothing is passed on. -/
theorem change_of_kind_kept_back :
    ∃ w updated, start (({ path := settingsPath } : SettingsStore).load (holding (ruleText "1")))
        (holding (ruleText "1")) = .ok w ∧
      (w.reload (holding (ruleText "true"))).watcher.store.lastFault = none ∧
      (w.reload (holding (ruleText "true"))).watcher.store.normalized = .ok updated ∧
      (w.reload (holding (ruleText "true"))).emitted = none ∧
      ¬ Equal (.obj updated) (.obj w.current) := by
  have hrun : (sectionIn (ruleText "1")).any (fun current =>
      (sectionIn (ruleText "true")).any fun updated =>
        (Json.obj updated).same (.obj current) &&
        ((Json.obj updated).at? ignoreCaseWay).map Json.kindName == some "bool" &&
        ((Json.obj current).at? ignoreCaseWay).map Json.kindName == some "int") = true := by
    decide +kernel
  obtain ⟨_, current, hbefore, hcurrent, hrun⟩ := found_holding (by decide +kernel) hrun
  obtain ⟨members, updated, hfound, hnormal, hrun⟩ := found_holding (by decide +kernel) hrun
  obtain ⟨w, hstart, hpath, hw⟩ := start_of_found hbefore hcurrent
  simp only [Bool.and_eq_true, beq_iff_eq, Option.map_eq_some_iff] at hrun
  obtain ⟨⟨hsame, x, hx, hbool⟩, y, hy, hint⟩ := hrun
  rw [← SettingsStore.found_congr (s := w.store) hpath] at hfound
  rw [← hw] at hsame hy
  have hleaves := reload_of_same hfound hnormal hsame
  have hstore := (store_reload w _).trans (SettingsStore.load_of_ok hfound)
  refine ⟨w, updated, hstart, by rw [hstore], ?_, hleaves.emitted, ?_⟩
  · rw [hstore]
    exact hnormal
  · intro hequal
    have hkind := hequal.kind_at? hx hy
    rw [hbool, hint] at hkind
    exact absurd hkind (by decide)

end SettingsWatcher

end Conceal
