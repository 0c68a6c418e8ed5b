import Conceal.Proofs.Settings.Delivery

/-!
What bringing a section into range gives. Every field gets a value that makes sense for it, all
other keys are left alone, and so is a field whose value makes sense already; doing it once more
changes nothing. Main statement: `normalize_settles`.
-/

namespace Conceal.Settings

open Json (Members)

/-- The fields that are brought into range. -/
inductive Field where
  | enabled
  | debounce
  | caretStyle
  | masks

/-- The key of a field. -/
def Field.key : Field → String
  | .enabled => "enabled"
  | .debounce => "debounce_ms"
  | .caretStyle => "cursor_style"
  | .masks => "masks"

/-- All fields, in their order. -/
def Field.all : List Field := [.enabled, .debounce, .caretStyle, .masks]

/-- The values that make sense for a field. -/
inductive Sensible : Field → Json → Prop
  | enabled (b : Bool) : Sensible .enabled (.bool b)
  | debounce (i : Int) (hmin : 10 ≤ i) (hmax : i ≤ 2000) : Sensible .debounce (.int i)
  | caretStyle {style : String}
      (h : style ∈ ["line", "line-thin", "block", "block-outline", "underline", "underline-thin"]) :
      Sensible .caretStyle (.str style)
  | masks {rules : List Json} (h : ∀ rule ∈ rules, ∃ members, rule = .obj members) :
      Sensible .masks (.arr rules)

/-- The rules that come of what is given for them, if anything is: the defaults, or the objects of a
list, or none. -/
inductive RulesFrom : Option Json → Json → Prop
  | absent : RulesFrom none defaultRules
  | list {items : List Json} : RulesFrom (some (.arr items)) (.arr (items.filter isObject))
  | other {value : Json} (h : ∀ items, value ≠ .arr items) : RulesFrom (some value) (.arr [])

/-! ## The fields -/

theorem isObject_iff {value : Json} : isObject value = true ↔ ∃ members, value = .obj members := by
  cases value <;> simp [isObject]

/-- The pause lies within its bounds, whatever was written. -/
theorem debounceOf_bounds {value : Json} {i : Int} (h : debounceOf value = .ok i) :
    10 ≤ i ∧ i ≤ 2000 := by
  unfold debounceOf at h
  split at h <;> cases h
  · simp only [minDebounce, maxDebounce]
    omega
  · simp [defaultDebounce]

/-- A pause within its bounds stays as it is. -/
theorem debounceOf_int {i : Int} (hmin : 10 ≤ i) (hmax : i ≤ 2000) :
    debounceOf (.int i) = .ok i := by
  have hclamp : max minDebounce (min maxDebounce i) = i := by
    simp only [minDebounce, maxDebounce]
    omega
  rw [debounceOf, Json.toInteger]
  dsimp only
  rw [hclamp]

/-- The caret style is one of those listed, whatever was written. -/
theorem caretStyleOf_mem (value : Json) : caretStyleOf value ∈ caretStyles := by
  unfold caretStyleOf
  dsimp only
  split
  next h => exact List.contains_iff_mem.mp h
  · decide

theorem caretStyleOf_str {style : String} (h : style ∈ caretStyles) :
    caretStyleOf (.str style) = style := by
  -- the styles are spelled as they are compared: without blanks, in small letters
  have hall : ∀ style ∈ caretStyles, caretStyleOf (.str style) = style := by decide +kernel
  exact hall style h

/-- Rules that are sections are all kept. -/
theorem rulesOf_objects {rules : List Json} (h : ∀ rule ∈ rules, ∃ members, rule = .obj members) :
    rulesOf (.arr rules) = rules :=
  List.filter_eq_self.mpr fun rule hrule => isObject_iff.mpr (h rule hrule)

/-! ## The section -/

variable {raw : Json} {s : Members}

/-- The defaults with all that is given over them. -/
def merged (raw : Json) : Members := Members.insertAll defaults (membersOf raw)

/-- The value in range of a field; the pause has been read already. -/
def settledField (values : Members) (pause : Int) : Field → Json
  | .enabled => .bool (values.get "enabled").isTruthy
  | .debounce => .int pause
  | .caretStyle => .str (caretStyleOf (values.get "cursor_style"))
  | .masks => .arr (rulesOf (values.get "masks"))

/-- Values with one in range for every field. -/
def settled (values : Members) (pause : Int) : Members :=
  values.insertAll (Field.all.map fun field => (field.key, settledField values pause field))

/-- Settings are normalized exactly if their pause can be read. -/
theorem normalize_eq_ok_iff : normalize raw = .ok s ↔
    ∃ pause, debounceOf ((merged raw).get "debounce_ms") = .ok pause ∧
      settled (merged raw) pause = s := by
  constructor
  · intro h
    obtain ⟨pause, hpause, h⟩ := bind_eq_ok.mp h
    exact ⟨pause, hpause, Except.ok.inj h⟩
  · rintro ⟨pause, hpause, rfl⟩
    exact bind_eq_ok.mpr ⟨pause, hpause, rfl⟩

private theorem nodup_settled (values : Members) (pause : Int) :
    ((Field.all.map fun field => (field.key, settledField values pause field)).map
      (·.1)).Nodup := by
  rw [List.map_map]
  exact (by decide : (Field.all.map Field.key).Nodup)

/-- Each field of the normalized settings has what was settled for it. -/
theorem get?_settled (values : Members) (pause : Int) (field : Field) :
    (settled values pause).get? field.key = some (settledField values pause field) := by
  rw [settled, Members.get?_insertAll values (nodup_settled values pause)]
  cases field <;> rfl

/-- A key that is no field keeps its value. -/
theorem get?_settled_of_ne {key : String} (hkey : ∀ field : Field, key ≠ field.key)
    (values : Members) (pause : Int) : (settled values pause).get? key = values.get? key := by
  have hnone :
      (Field.all.map fun field => (field.key, settledField values pause field)).lookup key =
        none := by
    rw [List.lookup_eq_none_iff]
    intro m hm
    obtain ⟨field, -, rfl⟩ := List.mem_map.mp hm
    exact bne_iff_ne.mpr (hkey field)
  rw [settled, Members.get?_insertAll values (nodup_settled values pause), hnone, Option.none_or]

/-- What is settled for a field makes sense for it. -/
theorem sensible_settledField (values : Members) {pause : Int} (hmin : 10 ≤ pause)
    (hmax : pause ≤ 2000) (field : Field) : Sensible field (settledField values pause field) := by
  cases field with
  | enabled => exact .enabled _
  | debounce => exact .debounce _ hmin hmax
  | caretStyle => exact .caretStyle (caretStyleOf_mem _)
  | masks =>
    refine .masks fun rule hrule => isObject_iff.mp ?_
    unfold rulesOf at hrule
    split at hrule
    · exact List.of_mem_filter hrule
    · cases hrule

/-- A sensible value of a field is in range already. -/
theorem settledField_eq {values : Members} {pause : Int} {field : Field} {value : Json}
    (hvalue : values.get field.key = value) (h : Sensible field value)
    (hpause : debounceOf (values.get "debounce_ms") = .ok pause) :
    settledField values pause field = value := by
  cases h with
  | enabled b => simp [settledField, show values.get "enabled" = _ from hvalue, Json.isTruthy]
  | debounce i hmin hmax =>
    rw [show values.get "debounce_ms" = _ from hvalue, debounceOf_int hmin hmax] at hpause
    rw [settledField, Except.ok.inj hpause]
  | caretStyle hmem =>
    rw [settledField, show values.get "cursor_style" = _ from hvalue, caretStyleOf_str hmem]
  | masks hobjects =>
    rw [settledField, show values.get "masks" = _ from hvalue, rulesOf_objects hobjects]

/-- The fields come first in the normalized settings. -/
theorem keys_settled (raw : Json) (pause : Int) :
    Field.all.map Field.key <+: (settled (merged raw) pause).map (·.1) :=
  (Members.keys_insertAll defaults (membersOf raw)).trans (Members.keys_insertAll (merged raw) _)

/-- A section that begins with its fields and has sensible values for them is in range already. -/
theorem normalize_eq_self (hs : (s.map (·.1)).Nodup)
    (hkeys : Field.all.map Field.key <+: s.map (·.1))
    (hsensible : ∀ field : Field, ∃ value, s.get? field.key = some value ∧ Sensible field value) :
    normalize (.obj s) = .ok s := by
  -- the defaults are all replaced, and their order is that of the section
  have hmerged : merged (.obj s) = s := Members.insertAll_eq_self hkeys hs
  obtain ⟨_, hget, hdebounce⟩ := hsensible .debounce
  cases hdebounce with | debounce pause hmin hmax =>
  have hpause : debounceOf (s.get "debounce_ms") = .ok pause := by
    rw [Members.get, show s.get? "debounce_ms" = _ from hget]
    exact debounceOf_int hmin hmax
  rw [normalize_eq_ok_iff, hmerged]
  refine ⟨pause, hpause, Members.insertAll_of_get? fun m hm => ?_⟩
  -- every field is given the value that it has
  obtain ⟨field, -, rfl⟩ := List.mem_map.mp hm
  obtain ⟨value, hget, hvalue⟩ := hsensible field
  have hfound : s.get field.key = value := by rw [Members.get, hget, Option.getD_some]
  rw [settledField_eq hfound hvalue hpause]
  exact hget

/-! ## What is given -/

section

variable (hraw : raw.Proper)

include hraw

/-- The keys of what is given come once each. -/
private theorem nodup_membersOf : ((membersOf raw).map (·.1)).Nodup := by
  cases raw with
  | obj members => exact (Json.proper_obj.mp hraw).1
  | _ => exact List.nodup_nil

/-- What was written goes before the defaults. -/
theorem get?_merged (key : String) :
    (merged raw).get? key = (Members.get? (membersOf raw) key).or (Members.get? defaults key) :=
  Members.get?_insertAll defaults (nodup_membersOf hraw) key

theorem get_merged {key : String} {value : Json}
    (h : Members.get? (membersOf raw) key = some value) : (merged raw).get key = value := by
  rw [Members.get, get?_merged hraw, h]
  rfl

/-- A key that is no field has what was written for it. -/
theorem get?_settled_merged_of_ne {key : String} (hkey : ∀ field : Field, key ≠ field.key)
    (pause : Int) :
    (settled (merged raw) pause).get? key = Members.get? (membersOf raw) key := by
  have hdefault : Members.get? defaults key = none := by
    rw [← Option.not_isSome_iff_eq_none, Json.isSome_get?]
    intro hmem
    obtain ⟨field, -, hfield⟩ := List.mem_map.mp (show key ∈ Field.all.map Field.key from hmem)
    exact hkey field hfield.symm
  rw [get?_settled_of_ne hkey, get?_merged hraw, hdefault, Option.or_none]

/-- The rules of the normalized settings are those that were written, less what is no rule. -/
theorem rulesFrom_settled (pause : Int) :
    ∃ rules, (settled (merged raw) pause).get? "masks" = some rules ∧
      RulesFrom (Members.get? (membersOf raw) "masks") rules := by
  refine ⟨_, get?_settled (merged raw) pause .masks, ?_⟩
  rw [settledField, Members.get, get?_merged hraw]
  cases Members.get? (membersOf raw) "masks" with
  | none => exact .absent
  | some value =>
    cases value with
    | arr items => exact .list
    | _ => exact .other (by simp)

end

/-- A section that is brought into range has a sensible value for every field, and this is the given
one if that is sensible; its rules are the objects of the given list in their order, none if there
is no list, and the defaults if nothing is given for them; all other keys have the given values, and
no others are there. To bring it into range again changes nothing. -/
theorem normalize_settles (hraw : raw.Proper) (h : normalize raw = .ok s) :
    let given := membersOf raw
    (∀ field : Field, ∃ value, s.get? field.key = some value ∧ Sensible field value) ∧
    (∀ (field : Field) value, Members.get? given field.key = some value → Sensible field value →
      s.get? field.key = some value) ∧
    (∃ rules, s.get? "masks" = some rules ∧ RulesFrom (Members.get? given "masks") rules) ∧
    (∀ key, (∀ field : Field, key ≠ field.key) → s.get? key = Members.get? given key) ∧
    normalize (.obj s) = .ok s := by
  have hproper := (Json.proper_obj.mp (proper_normalize hraw h)).1
  obtain ⟨pause, hpause, rfl⟩ := normalize_eq_ok_iff.mp h
  obtain ⟨hmin, hmax⟩ := debounceOf_bounds hpause
  have hsensible : ∀ field : Field, ∃ value,
      (settled (merged raw) pause).get? field.key = some value ∧ Sensible field value :=
    fun field => ⟨_, get?_settled _ _ field, sensible_settledField (merged raw) hmin hmax field⟩
  refine ⟨hsensible, ?_, rulesFrom_settled hraw pause, ?_, ?_⟩
  · intro field value hgiven hvalue
    rw [get?_settled, settledField_eq (get_merged hraw hgiven) hvalue hpause]
  · intro key hkey
    exact get?_settled_merged_of_ne hraw hkey pause
  · exact normalize_eq_self hproper (keys_settled raw pause) hsensible

/-- A section whose values are all in need of being brought into range. -/
def unsettled : Json := .obj [
  ("cursor_style", .str " BLOCK "), ("theme", .float (0.0 / 0.0)), ("debounce_ms", .str "1_0000"),
  ("masks", .arr [.null, .obj [("selector", .str "*")], .int 3])]

theorem proper_unsettled : unsettled.Proper := by
  refine Json.proper_obj.mpr ⟨by decide, ?_⟩
  simp only [List.forall_mem_cons]
  refine ⟨.str _, .float _, .str _, .arr ?_, by simp⟩
  simp only [List.forall_mem_cons]
  refine ⟨.null, .obj (by decide) ?_, .int _, by simp⟩
  simp only [List.forall_mem_cons]
  exact ⟨.str _, by simp⟩

theorem unsettled_settles : unsettled.Proper ∧ ∃ s, normalize unsettled = .ok s ∧
    (∃ value, s.get? "cursor_style" = some value ∧ Sensible .caretStyle value) ∧
    s.get? "theme" = some (.float (0.0 / 0.0)) ∧
    s.get? "masks" = some (.arr [.obj [("selector", .str "*")]]) ∧
    normalize (.obj s) = .ok s := by
  have hpause : debounceOf ((merged unsettled).get "debounce_ms") = .ok 2000 := by decide +kernel
  have hok := normalize_eq_ok_iff.mpr ⟨2000, hpause, rfl⟩
  obtain ⟨hsensible, -, ⟨rules, hrules, hfrom⟩, hother, hagain⟩ :=
    normalize_settles proper_unsettled hok
  have htheme := hother "theme" (by rintro (_ | _ | _ | _) <;> decide)
  cases hfrom with
  | list => exact ⟨proper_unsettled, _, hok, hsensible .caretStyle, htheme, hrules, hagain⟩
  | other h => exact absurd rfl (h _)

end Conceal.Settings
