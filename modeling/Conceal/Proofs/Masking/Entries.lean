import Conceal.Proofs.Json.Keys
import Conceal.Proofs.Session.Rules

/-!
How the entries of the settings say what masks show. The notation is given by relations between what
is written and what it stands for, with one constructor for each form; the reader of entries reads
it, all of it and nothing else. Main statement: `reads_notation`.
-/

namespace Conceal

/-! ## Fields -/

section get

variable {members : Json.Members} {key : String}

/-- A missing field reads like one that is null. -/
private theorem get_eq_null_iff :
    members.get key = .null ↔ members.get? key = none ∨ members.get? key = some .null := by
  unfold Json.Members.get
  cases members.get? key <;> simp

/-- A member that is not null is there. -/
theorem get_eq_iff {value : Json} (h : value ≠ .null) :
    members.get key = value ↔ members.get? key = some value := by
  unfold Json.Members.get
  cases members.get? key with
  | none => exact iff_of_false h.symm (by simp)
  | some found => simp

end get

/-- What a field that may hold a text says. It may be missing, and null and the empty text say
nothing. -/
inductive Says : Option Json → Option String → Prop
  | missing : Says none none
  | null : Says (some .null) none
  | empty : Says (some (.str "")) none
  | text {s : String} (h : s ≠ "") : Says (some (.str s)) (some s)

/-- A field that is missing, null or a text. -/
def MaySay (field : Option Json) : Prop :=
  field = none ∨ field = some .null ∨ ∃ s, field = some (.str s)

theorem says_text (s : String) : Says (some (.str s)) (if s = "" then none else some s) := by
  split
  next h =>
    subst h
    exact .empty
  next h => exact .text h

/-- A field may say what it says, if anything. -/
theorem maySay_iff {field : Option Json} : MaySay field ↔ ∃ said, Says field said := by
  constructor
  · rintro (rfl | rfl | ⟨s, rfl⟩)
    · exact ⟨_, .missing⟩
    · exact ⟨_, .null⟩
    · exact ⟨_, says_text s⟩
  · rintro ⟨said, h⟩
    cases h with
    | missing => exact Or.inl rfl
    | null => exact Or.inr (Or.inl rfl)
    | empty => exact Or.inr (Or.inr ⟨_, rfl⟩)
    | text => exact Or.inr (Or.inr ⟨_, rfl⟩)

/-- Reading a text succeeds exactly on a field that says one, or on none. -/
theorem Mask.textField_eq_ok_iff {members : Json.Members} {key : String} {said : Option String} :
    textField members key = .ok said ↔ Says (members.get? key) said := by
  unfold textField
  constructor
  · intro h
    split at h
    next hget =>
      cases h
      rcases get_eq_null_iff.mp hget with hfield | hfield
      · exact hfield ▸ .missing
      · exact hfield ▸ .null
    next s hget =>
      cases h
      exact (get_eq_iff (by simp)).mp hget ▸ says_text s
    · cases h
  · intro h
    unfold Json.Members.get
    generalize members.get? key = field at h
    cases h with
    | missing => rfl
    | null => rfl
    | empty => rfl
    | text hne => exact congrArg Except.ok (if_neg hne)

/-! ## Styles -/

/-- What a field of a style says: a text as other fields do, and any other value its own text. -/
inductive Shows : Option Json → Option String → Prop
  | text {field : Option Json} {said : Option String} (h : Says field said) : Shows field said
  | other {value : Json} (hnull : value ≠ .null) (htext : ∀ s, value ≠ .str s) :
      Shows (some value) (some value.text)

/-- What is written as a style stands for one. All fields may be missing, and what is no object
sets none of them. -/
inductive MaskStyle.Written : Json → MaskStyle → Prop
  | plain {value : Json} (h : ∀ members, value ≠ .obj members) : Written value {}
  | fields {members : Json.Members}
      {backgroundColor border borderColor color fontStyle fontWeight css : Option String}
      (hbackgroundColor : Shows (members.get? "backgroundColor") backgroundColor)
      (hborder : Shows (members.get? "border") border)
      (hborderColor : Shows (members.get? "borderColor") borderColor)
      (hcolor : Shows (members.get? "color") color)
      (hfontStyle : Shows (members.get? "fontStyle") fontStyle)
      (hfontWeight : Shows (members.get? "fontWeight") fontWeight)
      (hcss : Shows (members.get? "css") css) :
      Written (.obj members)
        ⟨backgroundColor, border, borderColor, color, fontStyle, fontWeight, css⟩

/-- A field of a style is read as what it shows, and shows something always. -/
theorem MaskStyle.field?_eq_iff {members : Json.Members} {key : String} {shown : Option String} :
    field? (members.get key) = shown ↔ Shows (members.get? key) shown := by
  constructor
  · intro h
    unfold field? at h
    split at h
    next hget =>
      subst h
      rcases get_eq_null_iff.mp hget with hfield | hfield
      · exact hfield ▸ .text .missing
      · exact hfield ▸ .text .null
    next s hget =>
      subst h
      exact (get_eq_iff (by simp)).mp hget ▸ .text (says_text s)
    next hnull htext =>
      subst h
      exact (get_eq_iff hnull).mp rfl ▸ .other hnull htext
  · intro h
    unfold Json.Members.get
    generalize members.get? key = field at h
    cases h with
    | text h =>
      cases h with
      | missing => rfl
      | null => rfl
      | empty => rfl
      | text hne => exact if_neg hne
    | other hnull htext =>
      rw [Option.getD_some, field?]
      · exact hnull
      · exact htext

/-- A style is read as it is written, from any value. -/
theorem MaskStyle.ofJson_eq_iff {value : Json} {style : MaskStyle} :
    ofJson value = style ↔ Written value style := by
  constructor
  · rintro rfl
    unfold ofJson
    split
    · constructor <;> exact field?_eq_iff.mp rfl
    next h => exact .plain h
  · intro h
    cases h with
    | plain h =>
      unfold ofJson
      split
      · exact absurd rfl (h _)
      · rfl
    | fields =>
      unfold ofJson
      dsimp only
      congr 1 <;> exact field?_eq_iff.mpr ‹_›

/-! ## Replacements of exact texts -/

/-- The text of a replacement: that of its field `text`, or, without such a field, that of its field
`value`. -/
inductive Worded (members : Json.Members) : String → Prop
  | text {s : String} (h : members.get? "text" = some (.str s)) : Worded members s
  | value {s : String} (hnone : members.get? "text" = none)
      (h : members.get? "value" = some (.str s)) : Worded members s

/-- What is written for an exact text stands for a replacement. -/
inductive Override.Written : Json → Override → Prop
  | short (text : String) : Written (.str text) { text }
  | full {members : Json.Members} {text : String} {scope hover : Option String} {style : MaskStyle}
      (htext : Worded members text) (hscope : Says (members.get? "scope") scope)
      (hhover : Says (members.get? "hover") hover)
      (hstyle : MaskStyle.Written (.obj members) style) :
      Written (.obj members) ⟨text, scope, hover, style⟩

/-- What may be written for an exact text. -/
def Override.Writable (value : Json) : Prop :=
  (∃ s, value = .str s) ∨ ∃ members : Json.Members, value = .obj members ∧
    ((∃ s, members.get? "text" = some (.str s)) ∨
      members.get? "text" = none ∧ ∃ s, members.get? "value" = some (.str s)) ∧
    MaySay (members.get? "scope") ∧ MaySay (members.get? "hover")

/-- The text of an override is under one of two names, the first of which counts. -/
theorem worded_iff {members : Json.Members} {s : String} : Worded members s ↔
    (members.get? "text").getD (members.get "value") = .str s := by
  constructor
  · intro h
    cases h with
    | text h => rw [h]; rfl
    | value hnone h => rw [hnone, Json.Members.get, h]; rfl
  · intro h
    cases htext : members.get? "text" with
    | some value =>
      rw [htext] at h
      exact .text (htext.trans (congrArg some h))
    | none =>
      rw [htext] at h
      exact .value htext ((get_eq_iff (by simp)).mp h)

/-- Values that may be written for an override are those that stand for one. -/
theorem Override.writable_iff {value : Json} : Writable value ↔ ∃ o, Written value o := by
  constructor
  · rintro (⟨s, rfl⟩ | ⟨members, rfl, htext, hscope, hhover⟩)
    · exact ⟨_, .short s⟩
    · obtain ⟨scope, hscope⟩ := maySay_iff.mp hscope
      obtain ⟨hover, hhover⟩ := maySay_iff.mp hhover
      have hstyle := MaskStyle.ofJson_eq_iff.mp (rfl : MaskStyle.ofJson (.obj members) = _)
      rcases htext with ⟨s, htext⟩ | ⟨hnone, s, hvalue⟩
      · exact ⟨_, .full (.text htext) hscope hhover hstyle⟩
      · exact ⟨_, .full (.value hnone hvalue) hscope hhover hstyle⟩
  · rintro ⟨o, h⟩
    cases h with
    | short text => exact Or.inl ⟨text, rfl⟩
    | full htext hscope hhover _ =>
      refine Or.inr ⟨_, rfl, ?_, maySay_iff.mpr ⟨_, hscope⟩, maySay_iff.mpr ⟨_, hhover⟩⟩
      cases htext with
      | text h => exact Or.inl ⟨_, h⟩
      | value hnone h => exact Or.inr ⟨hnone, _, h⟩

/-- Reading an override succeeds exactly on what is written for one. -/
theorem Mask.overrideOf_eq_ok_iff {literal : String} {value : Json} {o : Override} :
    overrideOf literal value = .ok o ↔ Override.Written value o := by
  constructor
  · intro h
    unfold overrideOf at h
    split at h
    next text =>
      cases h
      exact .short text
    next members =>
      split at h
      next text htext =>
        obtain ⟨scope, hscope, h⟩ := bind_eq_ok.mp h
        obtain ⟨hover, hhover, h⟩ := bind_eq_ok.mp h
        cases h
        exact .full (worded_iff.mpr htext) (textField_eq_ok_iff.mp hscope)
          (textField_eq_ok_iff.mp hhover) (MaskStyle.ofJson_eq_iff.mp rfl)
      · cases h
    · cases h
  · intro h
    cases h with
    | short text => rfl
    | full htext hscope hhover hstyle =>
      unfold overrideOf
      dsimp only
      rw [worded_iff.mp htext]
      dsimp only
      rw [textField_eq_ok_iff.mpr hscope, textField_eq_ok_iff.mpr hhover,
        MaskStyle.ofJson_eq_iff.mpr hstyle]
      rfl

/-- The texts are kept in their order, each with the replacement that is written beside it. -/
theorem Mask.overridesOf_eq_ok_iff {entries : List (String × Json)}
    {overrides : List (String × Override)} : overridesOf entries = .ok overrides ↔
      List.Forall₂ (fun e o => o.1 = e.1 ∧ Override.Written e.2 o.2) entries overrides := by
  induction entries generalizing overrides with
  | nil =>
    rw [List.forall₂_nil_left_iff]
    exact ⟨fun h => (Except.ok.inj h).symm, fun h => congrArg Except.ok h.symm⟩
  | cons entry rest ih =>
    obtain ⟨literal, value⟩ := entry
    rw [List.forall₂_cons_left_iff]
    constructor
    · intro h
      obtain ⟨first, hfirst, h⟩ := bind_eq_ok.mp h
      obtain ⟨others, hothers, h⟩ := bind_eq_ok.mp h
      cases h
      exact ⟨_, _, ⟨rfl, overrideOf_eq_ok_iff.mp hfirst⟩, ih.mp hothers, rfl⟩
    · rintro ⟨⟨literal', first⟩, others, ⟨rfl, hfirst⟩, hothers, rfl⟩
      exact bind_eq_ok.mpr ⟨first, overrideOf_eq_ok_iff.mpr hfirst,
        bind_eq_ok.mpr ⟨others, ih.mpr hothers, rfl⟩⟩

/-- A text has the replacement that is written beside its first occurrence. -/
private theorem lookup_written {entries : List (String × Json)}
    {overrides : List (String × Override)}
    (h : List.Forall₂ (fun e o => o.1 = e.1 ∧ Override.Written e.2 o.2) entries overrides)
    (s : String) : entries.lookup s = none ∧ overrides.lookup s = none ∨
      ∃ value o, entries.lookup s = some value ∧ overrides.lookup s = some o ∧
        Override.Written value o := by
  induction h with
  | nil => exact Or.inl ⟨rfl, rfl⟩
  | @cons e o es os ho _ ih =>
    obtain ⟨literal, value⟩ := e
    obtain ⟨literal', o⟩ := o
    obtain ⟨rfl, ho⟩ := ho
    dsimp only
    rw [List.lookup_cons, List.lookup_cons]
    split
    · exact Or.inr ⟨value, o, rfl, rfl, ho⟩
    · exact ih

/-! ## Masks -/

/-- What is written under `replace`, if anything, stands for what is shown. -/
inductive Replacement.Written : Option Json → Replacement → Prop
  | same {field : Option Json} {said : Option String} (h : Says field said) :
      Written field (.same said)
  | byText {entries : List (String × Json)} {overrides : List (String × Override)}
      (h : List.Forall₂ (fun e o => o.1 = e.1 ∧ Override.Written e.2 o.2) entries overrides) :
      Written (some (.obj entries)) (.byText overrides)

/-- What may be written under `replace`. -/
def Replacement.Writable (field : Option Json) : Prop :=
  MaySay field ∨ ∃ entries, field = some (.obj entries) ∧ ∀ e ∈ entries, Override.Writable e.2

/-- An entry stands for a mask. -/
inductive Mask.Written : Json → Mask → Prop
  | entry {members : Json.Members} {replacement : Replacement} {scope hover : Option String}
      {style : MaskStyle} (hreplace : Replacement.Written (members.get? "replace") replacement)
      (hscope : Says (members.get? "scope") scope) (hhover : Says (members.get? "hover") hover)
      (hstyle : MaskStyle.Written (members.get "style") style) :
      Written (.obj members) ⟨replacement, scope, hover, style⟩

/-- Values that may be written for a replacement are those that stand for one. -/
theorem Replacement.writable_iff {field : Option Json} :
    Writable field ↔ ∃ replacement, Written field replacement := by
  constructor
  · rintro (h | ⟨entries, rfl, h⟩)
    · obtain ⟨said, hsaid⟩ := maySay_iff.mp h
      exact ⟨_, .same hsaid⟩
    · -- the entries are written one by one, and none of them depends on another
      induction entries with
      | nil => exact ⟨_, .byText .nil⟩
      | cons entry rest ih =>
        obtain ⟨hfirst, hrest⟩ := List.forall_mem_cons.mp h
        obtain ⟨o, ho⟩ := Override.writable_iff.mp hfirst
        obtain ⟨replacement, hreplacement⟩ := ih hrest
        cases hreplacement with
        | same hsaid => cases hsaid
        | @byText _ overrides hoverrides =>
          exact ⟨.byText ((entry.1, o) :: overrides), .byText (.cons ⟨rfl, ho⟩ hoverrides)⟩
  · rintro ⟨replacement, h⟩
    cases h with
    | same h => exact Or.inl (maySay_iff.mpr ⟨_, h⟩)
    | byText h =>
      refine Or.inr ⟨_, rfl, ?_⟩
      induction h with
      | nil => simp
      | cons ho _ ih => exact List.forall_mem_cons.mpr ⟨Override.writable_iff.mpr ⟨_, ho.2⟩, ih⟩

/-- Reading a replacement succeeds exactly on what is written for one. -/
theorem Mask.replacementOf_eq_ok_iff {members : Json.Members} {replacement : Replacement} :
    replacementOf (members.get "replace") = .ok replacement ↔
      Replacement.Written (members.get? "replace") replacement := by
  constructor
  · intro h
    -- a text, a section by text, or nothing; anything else is refused
    unfold replacementOf at h
    split at h
    next hget =>
      cases h
      rcases get_eq_null_iff.mp hget with hfield | hfield
      · exact hfield ▸ .same .missing
      · exact hfield ▸ .same .null
    next text hget =>
      cases h
      exact (get_eq_iff (by simp)).mp hget ▸ .same (says_text text)
    next entries hget =>
      rw [(get_eq_iff (by simp)).mp hget]
      cases hread : overridesOf entries with
      | error fault =>
        rw [hread] at h
        cases h
      | ok overrides =>
        rw [hread] at h
        cases h
        exact .byText (overridesOf_eq_ok_iff.mp hread)
    · cases h
  · intro h
    unfold Json.Members.get
    generalize members.get? "replace" = field at h
    cases h with
    | same h =>
      cases h with
      | missing => rfl
      | null => rfl
      | empty => rfl
      | text hne => exact congrArg (fun said => Except.ok (Replacement.same said)) (if_neg hne)
    | byText h => exact congrArg (Except.map Replacement.byText) (overridesOf_eq_ok_iff.mpr h)

/-- The reader gives the mask that an entry stands for. -/
theorem Mask.ofJson_eq_ok_iff {entry : Json} {mask : Mask} :
    ofJson entry = .ok mask ↔ Mask.Written entry mask := by
  constructor
  · intro h
    unfold ofJson at h
    split at h
    · obtain ⟨replacement, hreplacement, h⟩ := bind_eq_ok.mp h
      obtain ⟨scope, hscope, h⟩ := bind_eq_ok.mp h
      obtain ⟨hover, hhover, h⟩ := bind_eq_ok.mp h
      cases h
      exact .entry (replacementOf_eq_ok_iff.mp hreplacement) (textField_eq_ok_iff.mp hscope)
        (textField_eq_ok_iff.mp hhover) (MaskStyle.ofJson_eq_iff.mp rfl)
    · cases h
  · intro h
    cases h with
    | entry hreplace hscope hhover hstyle =>
      obtain rfl := MaskStyle.ofJson_eq_iff.mpr hstyle
      exact bind_eq_ok.mpr ⟨_, replacementOf_eq_ok_iff.mpr hreplace,
        bind_eq_ok.mpr ⟨_, textField_eq_ok_iff.mpr hscope,
          bind_eq_ok.mpr ⟨_, textField_eq_ok_iff.mpr hhover, rfl⟩⟩⟩

namespace Mask

/-- Exact texts may have replacements of their own. -/
def Keyed (mask : Mask) : Prop := ∃ overrides, mask.replacement = .byText overrides

variable {members : Json.Members} {mask : Mask}

/-- The other fields of a mask are read off the entry's own. -/
theorem Written.fields (h : Written (.obj members) mask) :
    Says (members.get? "scope") mask.scope ∧ Says (members.get? "hover") mask.hover ∧
      MaskStyle.Written (members.get "style") mask.style := by
  cases h with
  | entry _ hscope hhover hstyle => exact ⟨hscope, hhover, hstyle⟩

/-- A mask has replacements for exact texts when there is an object under `replace`, be it an empty
one. -/
theorem Written.keyed_iff (h : Written (.obj members) mask) :
    mask.Keyed ↔ ∃ entries, members.get? "replace" = some (.obj entries) := by
  cases h with
  | entry hreplace =>
    unfold Keyed
    generalize members.get? "replace" = field at hreplace
    cases hreplace with
    | same hsaid =>
      constructor
      · rintro ⟨overrides, h⟩
        cases h
      · rintro ⟨entries, rfl⟩
        cases hsaid
    | byText => exact ⟨fun _ => ⟨_, rfl⟩, fun _ => ⟨_, rfl⟩⟩

/-- Without them all matches have the text that is written under `replace`. -/
theorem Written.says_replace (h : Written (.obj members) mask) (hkeyed : ¬ mask.Keyed) :
    Says (members.get? "replace") mask.sameText? ∧ ∀ s, mask.override? s = none := by
  cases h with
  | entry hreplace =>
    generalize members.get? "replace" = field at hreplace ⊢
    cases hreplace with
    | same hsaid => exact ⟨hsaid, fun _ => rfl⟩
    | byText => exact absurd ⟨_, rfl⟩ hkeyed

/-- With them each text has the replacement that is written for it, and no other text has one. -/
theorem Written.override? (h : Written (.obj members) mask) {entries : Json.Members}
    (hentries : members.get? "replace" = some (.obj entries)) (s : String) :
    ((mask.override? s).isSome = true ↔ s ∈ entries.map (·.1)) ∧
    ∀ value, entries.get? s = some value →
      ∃ o, mask.override? s = some o ∧ Override.Written value o := by
  cases h with
  | entry hreplace =>
    rw [hentries] at hreplace
    cases hreplace with
    | same hsaid => cases hsaid
    | @byText _ overrides h =>
      unfold Mask.override? Json.Members.get?
      dsimp only
      rw [← isSome_lookup]
      rcases lookup_written h s with ⟨hnone, hnone'⟩ | ⟨value, o, hvalue, ho, hwritten⟩
      · rw [hnone, hnone']
        exact ⟨Iff.rfl, fun value hvalue => by cases hvalue⟩
      · rw [hvalue, ho]
        refine ⟨Iff.rfl, fun value' hvalue' => ?_⟩
        cases hvalue'
        exact ⟨o, rfl, hwritten⟩

/-- Entries of the settings are accepted when they are written in the notation of masks. An entry is
read as a mask, or it is said why it is none; it is read when it is an object with a sensible
`replace`, `scope` and `hover`. Then the mask says what is written there: it has replacements for
exact texts when there is an object under `replace`, and these are for the keys of that object and
no other texts, each with the text, the scope, the hover text and the style that are written for
it. -/
theorem reads_notation (entry : Json) :
    (∀ fault, ofJson entry = .error fault → ∃ cause, fault = .mask cause) ∧
    ((∃ mask, ofJson entry = .ok mask) ↔ ∃ members : Json.Members, entry = .obj members ∧
      Replacement.Writable (members.get? "replace") ∧ MaySay (members.get? "scope") ∧
      MaySay (members.get? "hover")) ∧
    ∀ (members : Json.Members) (mask : Mask), entry = .obj members → ofJson entry = .ok mask →
      Says (members.get? "scope") mask.scope ∧ Says (members.get? "hover") mask.hover ∧
      MaskStyle.Written (members.get "style") mask.style ∧
      (mask.Keyed ↔ ∃ entries, members.get? "replace" = some (.obj entries)) ∧
      (¬ mask.Keyed →
        Says (members.get? "replace") mask.sameText? ∧ ∀ s, mask.override? s = none) ∧
      ∀ entries : Json.Members, members.get? "replace" = some (.obj entries) → ∀ s,
        ((mask.override? s).isSome = true ↔ s ∈ entries.map (·.1)) ∧
        ∀ value, entries.get? s = some value →
          ∃ o, mask.override? s = some o ∧ Override.Written value o := by
  refine ⟨explained_ofJson entry, ⟨?_, ?_⟩, ?_⟩
  · rintro ⟨mask, h⟩
    cases ofJson_eq_ok_iff.mp h with
    | entry hreplace hscope hhover _ =>
      exact ⟨_, rfl, Replacement.writable_iff.mpr ⟨_, hreplace⟩, maySay_iff.mpr ⟨_, hscope⟩,
        maySay_iff.mpr ⟨_, hhover⟩⟩
  · rintro ⟨members, rfl, hreplace, hscope, hhover⟩
    -- each field has a reading, and the style has one always
    obtain ⟨replacement, hreplace⟩ := Replacement.writable_iff.mp hreplace
    obtain ⟨scope, hscope⟩ := maySay_iff.mp hscope
    obtain ⟨hover, hhover⟩ := maySay_iff.mp hhover
    exact ⟨_, ofJson_eq_ok_iff.mpr
      (.entry hreplace hscope hhover (MaskStyle.ofJson_eq_iff.mp rfl))⟩
  · rintro members mask rfl h
    have hwritten := ofJson_eq_ok_iff.mp h
    obtain ⟨hscope, hhover, hstyle⟩ := hwritten.fields
    exact ⟨hscope, hhover, hstyle, hwritten.keyed_iff, hwritten.says_replace,
      fun entries hentries s => hwritten.override? hentries s⟩

/-- What is written for the texts `a`, `b` and `c`: in short, in full, and empty. -/
def entriesForThree : Json.Members :=
  [("a", .str "1"),
    ("b", .obj [("value", .str "2"), ("scope", .str ""), ("hover", .str "two"),
      ("color", .str "red")]),
    ("c", .obj [("text", .str ""), ("value", .int 3), ("hover", .null)])]

/-- All three have the replacements that are written for them, and `d` has none. -/
theorem three_read :
    ∃ mask, ofJson (.obj [("hover", .str ""), ("replace", .obj entriesForThree)]) = .ok mask ∧
      mask.hover = none ∧ mask.Keyed ∧ mask.override? "a" = some { text := "1" } ∧
      mask.override? "b" = some ⟨"2", none, some "two", { color := some "red" }⟩ ∧
      mask.override? "c" = some { text := "" } ∧ mask.override? "d" = none := by
  obtain ⟨-, hreads, hsays⟩ :=
    reads_notation (.obj [("hover", .str ""), ("replace", .obj entriesForThree)])
  have hentries : ∀ e ∈ entriesForThree, Override.Writable e.2 := by
    simp only [entriesForThree, List.forall_mem_cons]
    exact ⟨Or.inl ⟨"1", rfl⟩,
      Or.inr ⟨_, rfl, Or.inr ⟨rfl, "2", rfl⟩, Or.inr (Or.inr ⟨"", rfl⟩),
        Or.inr (Or.inr ⟨"two", rfl⟩)⟩,
      Or.inr ⟨_, rfl, Or.inl ⟨"", rfl⟩, Or.inl rfl, Or.inr (Or.inl rfl)⟩, by simp⟩
  obtain ⟨mask, hmask⟩ := hreads.mpr ⟨_, rfl, Or.inr ⟨_, rfl, hentries⟩, Or.inl rfl,
    Or.inr (Or.inr ⟨"", rfl⟩)⟩
  obtain ⟨-, hhover, -, hkeyed, -, hoverride⟩ := hsays _ mask rfl hmask
  have hfound := hoverride entriesForThree rfl
  have hone : ∀ s value o, entriesForThree.get? s = some value → overrideOf s value = .ok o →
      mask.override? s = some o := by
    intro s value o hvalue ho
    obtain ⟨o', ho', hwritten⟩ := (hfound s).2 value hvalue
    rw [overrideOf_eq_ok_iff.mpr hwritten] at ho
    rw [ho', Except.ok.inj ho]
  refine ⟨mask, hmask, ?_, hkeyed.mpr ⟨_, rfl⟩, hone "a" _ _ rfl rfl, hone "b" _ _ rfl rfl,
    hone "c" _ _ rfl rfl, ?_⟩
  · generalize mask.hover = hover at hhover
    cases hhover with
    | empty => rfl
    | text h => exact absurd rfl h
  · rw [← Option.not_isSome_iff_eq_none, (hfound "d").1]
    decide

end Mask

end Conceal
