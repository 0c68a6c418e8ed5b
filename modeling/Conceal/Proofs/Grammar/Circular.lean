import Conceal.Grammar.Basic
import Conceal.Proofs.Grammar.Reading

/-!
Circles of includes. A description that is otherwise in order is refused for its includes exactly
when some circle of them is come to at a link first. So circles of links are refused, and circles
without links are not; of the others it depends on where they are entered. Main statement:
`circular_iff`.
-/

namespace Conceal

namespace Grammar

open Relation (TransGen ReflTransGen)

namespace Build

/-- The members of a description are in order, but for circles of includes: there is a name for the
scope, `entries` are the repository, and all rules that are come to are there and in order. -/
structure Sound (members entries : Json.Members) : Prop where
  scopeName : ∃ s, members.get "scopeName" = .str s ∧ Text.trim s ≠ ""
  repository : (members.get "repository").orElse (.obj []) = .obj entries
  patterns : ValidInner members
  entries : ∀ key, Used entries (includesInner members) key →
    ∃ value, entries.get? key = some value ∧ Valid value

section sound

variable {members entries : Json.Members}

/-- Where the entries that are used are sound they are in order. -/
theorem Sound.inOrder (h : Sound members entries) :
    InOrder entries (Used entries (includesInner members)) where
  valid := h.entries
  closed := by
    rintro key ⟨root, hroot, hreach⟩ next hnext
    exact ⟨root, hroot, hreach.tail hnext⟩

/-- The rules of a grammar are gone through from what its patterns refer to. -/
theorem table_walk (source : String) (h : Sound members entries) :
    (∃ rules order, table source members = .ok rules ∧
      Walk (refersTo entries) (IsLink entries) [] [] (includesInner members) (some order)) ∨
    ∃ key, table source members = .error (.grammar source (.circularInclude ("#" ++ key))) ∧
      Walk (refersTo entries) (IsLink entries) [] [] (includesInner members) none := by
  have hrepository : repository source members = .ok entries := by
    rw [repository, h.repository]
  have hroots : ∀ key ∈ (itemsInner members).filterMap Item.key?,
      Used entries (includesInner members) key := by
    rw [keys_itemsInner]
    exact fun key hkey => ⟨key, hkey, .refl⟩
  have hfine := fine_itemsInner members h.patterns
  rcases table_trail hrepository with ⟨rules, order, htable, htrail⟩ | ⟨stop, htable, htrail⟩
  · have hwalk := (htrail.walk h.inOrder hfine hroots).1
    rw [keys_itemsInner] at hwalk
    exact Or.inl ⟨rules, order, htable, hwalk⟩
  · obtain ⟨hwalk, hstop⟩ := htrail.walk h.inOrder hfine hroots
    obtain ⟨key, rfl⟩ := hstop stop rfl
    rw [keys_itemsInner] at hwalk
    exact Or.inr ⟨key, htable, hwalk⟩

end sound

/-- A grammar is described by an object with certain members, or by a text that holds one. -/
def Describes (raw : Json) (members : Json.Members) : Prop :=
  raw = .obj members ∨ ∃ text, raw = .str text ∧ Json.parse text = .ok (.obj members)

/-- A grammar is refused because its includes go round in a circle. -/
def Circular (source : String) (raw : Json) : Prop :=
  ∃ key, ofJson source raw = .error (.grammar source (.circularInclude ("#" ++ key)))

variable {raw : Json} {members entries : Json.Members}

/-- A grammar is made from the table of what describes it. -/
theorem exists_table {source : String} {g : Grammar} (h : ofJson source raw = .ok g) :
    ∃ members scopeName name rules, Describes raw members ∧ table source members = .ok rules ∧
      g = ofRules scopeName name source rules := by
  have hmembers : ∀ members, ofMembers source members = .ok g → ∃ scopeName name rules,
      table source members = .ok rules ∧ g = ofRules scopeName name source rules := by
    intro members h
    unfold ofMembers at h
    split at h
    · dsimp only at h
      split at h
      · cases h
      · obtain ⟨rules, htable, h⟩ := bind_eq_ok.mp h
        exact ⟨_, _, rules, htable, (Except.ok.inj h).symm⟩
    · cases h
  unfold ofJson at h
  split at h
  · split at h
    next hparse =>
      obtain ⟨scopeName, name, rules, htable, hg⟩ := hmembers _ h
      exact ⟨_, scopeName, name, rules, Or.inr ⟨_, rfl, hparse⟩, htable, hg⟩
    all_goals cases h
  · obtain ⟨scopeName, name, rules, htable, hg⟩ := hmembers _ h
    exact ⟨_, scopeName, name, rules, Or.inl rfl, htable, hg⟩
  · cases h

/-- Of a sound description a grammar is made, unless the table of its rules cannot be filled. -/
theorem ofJson_eq (source : String) (hraw : Describes raw members) (hsound : Sound members entries) :
    ∃ scopeName name, ofJson source raw = (do
      let rules ← table source members
      return ofRules scopeName name source rules) := by
  obtain ⟨s, hs, hne⟩ := hsound.scopeName
  have hmembers : ofJson source raw = ofMembers source members := by
    rcases hraw with rfl | ⟨text, rfl, hparse⟩
    · rfl
    · simp only [ofJson, hparse]
  refine ⟨Text.trim s, ((members.get "name").orElse (.str (Text.trim s))).text, ?_⟩
  rw [hmembers]
  simp only [ofMembers, hs, if_neg hne]

/-- A description that is in order gives a grammar, or is refused for a circle of includes. -/
theorem ofJson_walk (source : String) (hraw : Describes raw members)
    (hsound : Sound members entries) :
    ∃ found, Walk (refersTo entries) (IsLink entries) [] [] (includesInner members) found ∧
      ((∃ g, ofJson source raw = .ok g) ↔ found ≠ none) ∧
      (Circular source raw ↔ found = none) := by
  obtain ⟨scopeName, name, heq⟩ := ofJson_eq source hraw hsound
  rcases table_walk source hsound with
    ⟨rules, order, htable, hwalk⟩ | ⟨key, htable, hwalk⟩
  · have hok : ofJson source raw = .ok (ofRules scopeName name source rules) := by
      rw [heq, htable]
      rfl
    refine ⟨some order, hwalk, by simp [hok], ?_⟩
    simp [Circular, hok]
  · have herror : ofJson source raw =
        .error (.grammar source (.circularInclude ("#" ++ key))) := by
      rw [heq, htable]
      rfl
    refine ⟨none, hwalk, by simp [herror], ?_⟩
    simp only [Circular, herror, iff_true]
    exact ⟨key, rfl⟩

/-- Entries that can be reached are finitely many, and refer to each other only. -/
theorem exists_keys (hsound : Sound members entries) :
    ∃ keys : List String, (∀ key, key ∈ keys ↔ Used entries (includesInner members) key) := by
  classical
  refine ⟨(entries.map (·.1)).filter (Used entries (includesInner members) ·), ?_⟩
  intro key
  rw [List.mem_filter, decide_eq_true_iff, and_iff_right_iff_imp]
  intro hreached
  obtain ⟨value, hentry, _⟩ := hsound.entries key hreached
  exact isSome_lookup.mp (Option.isSome_of_eq_some hentry)

/-- A description that is in order gives a grammar or is refused for a circle of includes; and it is
refused exactly when there is a circle of includes of which the entry that is come to first, as the
includes are gone through depth first, is a link. So it is refused when links go round in a circle,
and not when no link lies on a circle. -/
theorem circular_iff (source : String) (hraw : Describes raw members)
    (hsound : Sound members entries) :
    let refs := refersTo entries
    let roots := includesInner members
    ((∃ g, ofJson source raw = .ok g) ∨ Circular source raw) ∧
    (Circular source raw ↔
      ∃ order, Discovers refs [] roots order ∧ Circles refs (IsLink entries) order) ∧
    ((∃ key, Used entries roots key ∧ TransGen (LinksTo refs (IsLink entries)) key key) →
      Circular source raw) ∧
    ((∀ key, Used entries roots key → IsLink entries key →
      ¬ TransGen (fun x y => y ∈ refs x) key key) → ∃ g, ofJson source raw = .ok g) := by
  obtain ⟨found, hwalk, hok, hcircular⟩ := ofJson_walk source hraw hsound
  obtain ⟨keys, hkeys⟩ := exists_keys hsound
  have hclosed : ∀ x ∈ keys, refersTo entries x ⊆ keys := fun x hx next hnext =>
    (hkeys next).mpr (hsound.inOrder.closed x ((hkeys x).mp hx) next hnext)
  have hroots : includesInner members ⊆ keys := fun root hroot =>
    (hkeys root).mpr ⟨root, hroot, .refl⟩
  have hiff := hwalk.stopped_iff hclosed hroots
  -- the walk either comes to its end or is stopped
  have heither : (∃ g, ofJson source raw = .ok g) ∨ Circular source raw := by
    rw [hok, hcircular]
    exact (em (found = none)).symm
  refine ⟨heither, hcircular.trans hiff, ?_, ?_⟩
  · rintro ⟨key, ⟨root, hroot, hreach⟩, hcircle⟩
    obtain ⟨order, horder, _⟩ :=
      exists_discovers hclosed List.nodup_nil (List.nil_subset _) hroots
    rw [hcircular, hiff]
    exact ⟨order, horder, circles_of_links (horder.complete hroot hreach) hcircle⟩
  · -- the first key of a circle onward is a link that lies on a circle
    intro hfree
    refine heither.resolve_right ?_
    rw [hcircular, hiff]
    rintro ⟨order, horder, before, key, hbefore, hlink, hcircle⟩
    have hin : key ∈ order := hbefore.subset (by simp)
    have hreached : Used entries (includesInner members) key :=
      (horder.reached hin).resolve_left (List.not_mem_nil)
    have hrefers : ∀ x y, Onward (refersTo entries) before x y → y ∈ refersTo entries x :=
      fun _ _ h => h.1
    exact hfree key hreached hlink (TransGen.mono hrefers key key hcircle)

/-- A list that holds itself under another name. -/
def nestedEntries : Json.Members :=
  [("a", .obj [("include", .str "#b")]),
    ("b", .obj [("patterns", .arr [.obj [("include", .str "#a")], .obj [("match", .str "x")]])])]

/-- The list, included under both names. -/
def nested (first second : String) : Json.Members :=
  [("scopeName", .str "s"),
    ("patterns", .arr [.obj [("include", .str first)], .obj [("include", .str second)]]),
    ("repository", .obj nestedEntries)]

private theorem refersTo_nested_a : refersTo nestedEntries "a" = ["b"] := by decide +kernel

private theorem refersTo_nested_b : refersTo nestedEntries "b" = ["a"] := by decide +kernel

/-- Of the two entries no other one is reached. -/
private theorem reached_nested {key : String} (h : Used nestedEntries ["a", "b"] key) :
    key = "a" ∨ key = "b" := by
  obtain ⟨root, hroot, hreach⟩ := h
  induction hreach with
  | refl => simpa using hroot
  | tail _ hstep ih =>
    rcases ih with rfl | rfl
    · rw [refersTo_nested_a] at hstep
      exact Or.inr (List.mem_singleton.mp hstep)
    · rw [refersTo_nested_b] at hstep
      exact Or.inl (List.mem_singleton.mp hstep)

private theorem compiles_x : Compiles (.str "x") := by
  have hcompile : (Regex.compile "x").toOption.isSome = true := by decide +kernel
  cases h : Regex.compile "x" with
  | ok r => exact ⟨"x", r, rfl, h⟩
  | error e => rw [h] at hcompile; cases hcompile

/-- The example is sound, whatever the two includes are called. -/
theorem nested_sound {first second : String} (hfirst : first ≠ "") (hsecond : second ≠ "")
    (hroots : includesInner (nested first second) ⊆ ["a", "b"]) :
    Sound (nested first second) nestedEntries where
  scopeName := ⟨"s", rfl, by decide +kernel⟩
  repository := rfl
  patterns := by
    simp [nested, ValidInner, ValidListed, ValidEach, Valid, Json.Members.get?, hfirst, hsecond]
  entries := by
    rintro key ⟨root, hroot, hreach⟩
    rcases reached_nested ⟨root, hroots hroot, hreach⟩ with rfl | rfl
    · refine ⟨_, rfl, ?_⟩
      simp [Valid, Json.Members.get?]
    · refine ⟨_, rfl, ?_⟩
      simp [Valid, ValidInner, ValidListed, ValidEach, Json.Members.get?, List.lookup_cons, Readable,
        compiles_x]

/-- Only the first entry is a link. -/
theorem isLink_nested {key : String} (h : IsLink nestedEntries key) : key = "a" := by
  obtain ⟨members, reference, hentry, hinclude⟩ := h
  by_contra hkey
  by_cases hb : key = "b"
  · subst hb
    have hmembers : some (Json.obj [("patterns", .arr [.obj [("include", .str "#a")],
      .obj [("match", .str "x")]])]) = some (.obj members) := hentry
    cases hmembers
    cases hinclude
  · have hnone : nestedEntries.get? key = none := by
      simp [nestedEntries, Json.Members.get?, List.lookup_cons, beq_eq_false_iff_ne.mpr hkey,
        beq_eq_false_iff_ne.mpr hb]
    rw [hnone] at hentry
    cases hentry

/-- Included under the name of the list itself first, it is read. -/
theorem nested_read :
    ∃ g, ofJson anonymous (.obj (nested "#b" "#a")) = .ok g ∧
      Describes (.obj (nested "#b" "#a")) (nested "#b" "#a") ∧
      Sound (nested "#b" "#a") nestedEntries ∧
      ∀ order, Discovers (refersTo nestedEntries) [] ["b", "a"] order →
        ¬ Circles (refersTo nestedEntries) (IsLink nestedEntries) order := by
  have hrun : (ofJson anonymous (.obj (nested "#b" "#a"))).toOption.isSome = true := by
    decide +kernel
  have hroots : includesInner (nested "#b" "#a") = ["b", "a"] := by decide +kernel
  have hsound : Sound (nested "#b" "#a") nestedEntries :=
    nested_sound (by decide) (by decide) (by rw [hroots]; decide)
  have hraw : Describes (.obj (nested "#b" "#a")) (nested "#b" "#a") := Or.inl rfl
  cases hg : ofJson anonymous (.obj (nested "#b" "#a")) with
  | error f => rw [hg] at hrun; cases hrun
  | ok g =>
    refine ⟨g, rfl, hraw, hsound, ?_⟩
    intro order horder hcircles
    obtain ⟨_, hiff, _⟩ := circular_iff anonymous hraw hsound
    rw [hroots] at hiff
    obtain ⟨key, hrefused⟩ := hiff.mpr ⟨order, horder, hcircles⟩
    rw [hg] at hrefused
    cases hrefused

/-- Included under the other name first, it is refused, though no links go round in a circle. -/
theorem nested_refused :
    Circular anonymous (.obj (nested "#a" "#b")) ∧
      Describes (.obj (nested "#a" "#b")) (nested "#a" "#b") ∧
      Sound (nested "#a" "#b") nestedEntries ∧
      (∀ key, ¬ TransGen (LinksTo (refersTo nestedEntries) (IsLink nestedEntries)) key key) ∧
      ∃ g, ofJson anonymous (.obj (nested "#b" "#a")) = .ok g := by
  have hrefused : ofJson anonymous (.obj (nested "#a" "#b")) =
      .error (.grammar anonymous (.circularInclude ("#" ++ "a"))) :=
    fault?_eq_some_iff.mp (by decide +kernel)
  have hread : (ofJson anonymous (.obj (nested "#b" "#a"))).toOption.isSome = true := by
    decide +kernel
  have hroots : includesInner (nested "#a" "#b") = ["a", "b"] := by decide +kernel
  have hsound : Sound (nested "#a" "#b") nestedEntries :=
    nested_sound (by decide) (by decide) (by rw [hroots]; exact List.Subset.refl _)
  refine ⟨⟨"a", hrefused⟩, Or.inl rfl, hsound, ?_, ?_⟩
  · intro key hcircle
    -- from the link there is one step, to the list, which is no link
    obtain ⟨x, ⟨hlink, hstep⟩, hback⟩ := TransGen.head'_iff.mp hcircle
    obtain rfl := isLink_nested hlink
    rw [refersTo_nested_a, List.mem_singleton] at hstep
    subst hstep
    rcases Relation.ReflTransGen.cases_head hback with heq | ⟨_, ⟨hlink', _⟩, _⟩
    · exact absurd heq (by decide)
    · exact absurd (isLink_nested hlink') (by decide)
  · cases hg : ofJson anonymous (.obj (nested "#b" "#a")) with
    | error f => rw [hg] at hread; cases hread
    | ok g => exact ⟨g, rfl⟩

end Build

end Grammar

end Conceal
