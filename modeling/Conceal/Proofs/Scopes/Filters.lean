import Conceal.Proofs.Masking.Reveal

/-!
Scope filters. A scope lies within a filter when the components of the filter, which are what its
dots part, come first among those of the scope. So this is an order on the names that are not empty,
and a mask whose filters hold more decorates all that it did before. Main statement:
`filters_are_prefixes`.
-/

namespace Conceal

/-! ## Components -/

namespace Scope

variable {scope filter : List Char}

/-- The components of a scope are its parts between the dots. -/
theorem components_eq_splitOn (scope : List Char) : components scope = scope.splitOn '.' := by
  rw [components]
  induction scope with
  | nil => rfl
  | cons c rest ih =>
    rw [Text.splitChars, List.splitOn_cons_eq_if_modifyHead, ← ih]
    by_cases hdot : c = '.'
    · rw [if_pos hdot, if_pos (beq_iff_eq.mpr hdot)]
    · rw [if_neg hdot, if_neg (mt beq_iff_eq.mp hdot)]
      rcases hpieces : Text.splitChars '.' rest with _ | ⟨piece, pieces⟩
      · exact absurd hpieces (Text.splitChars_ne_nil '.' rest)
      · rfl

private theorem components_ne_nil (scope : List Char) : components scope ≠ [] :=
  Text.splitChars_ne_nil '.' scope

/-- The components put together again are the scope. -/
theorem intercalate_components (scope : List Char) :
    ['.'].intercalate (components scope) = scope :=
  Text.intercalate_splitChars '.' scope

/-- A dot ends a component, so that the components of both sides follow each other. -/
theorem components_append_dot (filter rest : List Char) :
    components (filter ++ '.' :: rest) = components filter ++ components rest := by
  rw [components_eq_splitOn, List.splitOn_append_cons_self, ← components_eq_splitOn,
    ← components_eq_splitOn]

private theorem intercalate_append (separator : List Char) {first second : List (List Char)}
    (hfirst : first ≠ []) (hsecond : second ≠ []) : separator.intercalate (first ++ second) =
      separator.intercalate first ++ separator ++ separator.intercalate second := by
  induction first with
  | nil => exact absurd rfl hfirst
  | cons piece pieces ih =>
    cases pieces with
    | nil => rw [List.singleton_append, List.intercalate_cons_of_ne_nil hsecond,
        List.intercalate_singleton]
    | cons next pieces =>
      have hrest := ih (List.cons_ne_nil next pieces)
      rw [List.cons_append, List.intercalate_cons_of_ne_nil (by simp), hrest,
        List.intercalate_cons_of_ne_nil (List.cons_ne_nil next pieces)]
      simp only [List.append_assoc]

/-- A filter's components come first when the scope is the filter or goes on behind it with a
dot. -/
theorem components_prefix_iff :
    components filter <+: components scope ↔ scope = filter ∨ filter ++ ['.'] <+: scope := by
  constructor
  · rintro ⟨others, hothers⟩
    rw [← intercalate_components scope, ← hothers]
    cases others with
    | nil => exact Or.inl (by rw [List.append_nil, intercalate_components])
    | cons piece pieces =>
      rw [intercalate_append _ (components_ne_nil filter) (List.cons_ne_nil piece pieces),
        intercalate_components]
      exact Or.inr (List.prefix_append _ _)
  · rintro (rfl | ⟨rest, rfl⟩)
    · exact List.prefix_refl _
    · rw [List.append_assoc, List.singleton_append, components_append_dot]
      exact List.prefix_append _ _

theorem filter_ne_empty {scope filter : String} (h : within scope filter = true) :
    filter ≠ "" := by
  rintro rfl
  cases h

theorem scope_ne_empty {scope filter : String} (h : within scope filter = true) :
    scope ≠ "" := by
  rintro rfl
  have hfilter := filter_ne_empty h
  rcases (within_iff hfilter).mp h with hsame | hprefix
  · exact hfilter hsame.symm
  · simp at hprefix

/-- A scope is within a filter exactly if the filter's components begin its own. -/
theorem within_iff_components (scope filter : String) : within scope filter = true ↔
    filter ≠ "" ∧ components filter.toList <+: components scope.toList := by
  rw [components_prefix_iff, String.toList_inj]
  constructor
  · intro h
    exact ⟨filter_ne_empty h, (within_iff (filter_ne_empty h)).mp h⟩
  · rintro ⟨hfilter, h⟩
    exact (within_iff hfilter).mpr h

/-! ## The order of scopes -/

theorem within_self {scope : String} (h : scope ≠ "") : within scope scope = true :=
  (within_iff_components scope scope).mpr ⟨h, List.prefix_refl _⟩

/-- What is within a scope is within all that the scope is within. -/
theorem within_trans {s g f : String} (h : within s g = true) (h' : within g f = true) :
    within s f = true := by
  rw [within_iff_components] at h h' ⊢
  exact ⟨h'.1, h'.2.trans h.2⟩

/-- Two scopes that are within each other are the same. -/
theorem within_antisymm {s f : String} (h : within s f = true) (h' : within f s = true) :
    s = f := by
  rw [within_iff_components] at h h'
  have hsame := h'.2.eq_of_length_le h.2.length_le
  rw [← String.toList_inj, ← intercalate_components s.toList, hsame, intercalate_components]

/-- A token that one filter accepts is accepted by each wider one. -/
theorem token_within {g f : String} (h : within g f = true) (token : Token)
    (htoken : token.within g = true) : token.within f = true := by
  obtain ⟨scope, hscope, hwithin⟩ := List.any_eq_true.mp htoken
  exact List.any_eq_true.mpr ⟨scope, hscope, within_trans hwithin h⟩

/-- A filter in place of another, if any: the same, or one that the other lies within. -/
inductive Wider : Option String → Option String → Prop
  | same (filter : Option String) : Wider filter filter
  | within {g f : String} (h : within g f = true) : Wider (some g) (some f)

/-- What counts as no filter keeps doing so. -/
theorem Wider.nonempty {filter filter' : Option String} (h : Wider filter filter') :
    Wider (filter.filter (· != "")) (filter'.filter (· != "")) := by
  cases h with
  | same => exact .same _
  | @within g f h =>
    rw [Option.filter_some_pos (by simpa using scope_ne_empty h),
      Option.filter_some_pos (by simpa using filter_ne_empty h)]
    exact .within h

/-- A default that is wider, behind a choice that is wider. -/
theorem Wider.orElse {first first' second second' : Option String} (h : Wider first first')
    (h' : Wider second second') : Wider (first <|> second) (first' <|> second') := by
  cases h with
  | same =>
    cases first with
    | none => exact h'
    | some filter => exact .same _
  | within h => exact .within h

end Scope

/-! ## Masks under other filters -/

/-- The replacement of an exact text, but for its filter. -/
structure Override.Wider (o o' : Override) : Prop where
  scope : Scope.Wider o.scope o'.scope
  text : o'.text = o.text
  hover : o'.hover = o.hover
  style : o'.style = o.style

/-- The same replacements, but for their filters. -/
inductive Replacement.Wider : Replacement → Replacement → Prop
  | same (text : Option String) : Wider (.same text) (.same text)
  | byText {overrides overrides' : List (String × Override)}
      (h : List.Forall₂ (fun o o' => o'.1 = o.1 ∧ o.2.Wider o'.2) overrides overrides') :
      Wider (.byText overrides) (.byText overrides')

namespace Mask

/-- The same mask, but for its filters: each of them is as it was, or lies within the new one. -/
structure Wider (mask mask' : Mask) : Prop where
  replacement : mask.replacement.Wider mask'.replacement
  scope : Scope.Wider mask.scope mask'.scope
  hover : mask'.hover = mask.hover
  style : mask'.style = mask.style

variable {mask mask' : Mask}

/-- The same texts have replacements of their own. -/
theorem Wider.override? (h : mask.Wider mask') (text : String) :
    mask.override? text = none ∧ mask'.override? text = none ∨
      ∃ o o', mask.override? text = some o ∧ mask'.override? text = some o' ∧ o.Wider o' := by
  have hreplacement := h.replacement
  unfold Mask.override?
  -- the induction is on the pairs of overrides, so the masks around them have to go
  generalize mask.replacement = r at hreplacement ⊢
  generalize mask'.replacement = r' at hreplacement ⊢
  cases hreplacement with
  | same => exact Or.inl ⟨rfl, rfl⟩
  | byText h =>
    induction h with
    | nil => exact Or.inl ⟨rfl, rfl⟩
    | @cons o o' os os' ho _ ih =>
      obtain ⟨literal, o⟩ := o
      obtain ⟨literal', o'⟩ := o'
      obtain ⟨rfl, ho⟩ := ho
      dsimp only
      rw [List.lookup_cons, List.lookup_cons]
      split
      · exact Or.inr ⟨o, o', rfl, rfl, ho⟩
      · exact ih

/-- At every match the mask asks for a filter that lies within the new one, if any. -/
theorem Wider.filter? (h : mask.Wider mask') (text : String) :
    Scope.Wider (Masking.filter? mask (mask.override? text))
      (Masking.filter? mask' (mask'.override? text)) := by
  refine Scope.Wider.orElse ?_ h.scope.nonempty
  rcases h.override? text with ⟨hnone, hnone'⟩ | ⟨o, o', ho, ho', hwider⟩
  · rw [hnone, hnone']
    exact .same _
  · rw [ho, ho']
    exact hwider.scope.nonempty

end Mask

namespace Entry

open Masking

variable {x : Entry} {mask : Mask} {v : Scene} {m : Regex.Found}

/-- A match with a filter had one before, and this lies within it. -/
theorem AsksFor.of_wider (h : x.mask.Wider mask) {filter : String}
    (hasks : Entry.AsksFor { x with mask } v m filter) :
    ∃ before, x.AsksFor v m before ∧ (before = filter ∨ Scope.within before filter = true) := by
  have hwider : Scope.Wider (Masking.filter? x.mask (x.own? v m)) (some filter) :=
    filter?_eq_some_iff.mpr hasks ▸ h.filter? (v.textOf m)
  simp only [← filter?_eq_some_iff]
  generalize Masking.filter? x.mask (x.own? v m) = before at hwider ⊢
  cases hwider with
  | same => exact ⟨filter, rfl, Or.inl rfl⟩
  | within hwithin => exact ⟨_, rfl, Or.inr hwithin⟩

/-- A place in the scope of a filter is in that of each wider one. -/
theorem inScope_of_within {g f : String} (h : Scope.within g f = true) (hscope : v.InScope m g) :
    v.InScope m f := by
  obtain ⟨tokens, htokens, token, htoken, scope, hmem, hfalls⟩ := hscope
  have hbefore := (Scope.within_iff (Scope.scope_ne_empty h)).mpr hfalls
  have hwithin := Scope.within_trans hbefore h
  exact ⟨tokens, htokens, token, htoken, scope, hmem,
    (Scope.within_iff (Scope.filter_ne_empty h)).mp hwithin⟩

/-- A match that is masked stays so. -/
theorem Masks.wider (h : x.mask.Wider mask) (hmasks : x.Masks v m) :
    Entry.Masks { x with mask } v m := by
  refine ⟨hmasks.1, fun filter hasks => ?_⟩
  obtain ⟨before, hbefore, rfl | hwithin⟩ := AsksFor.of_wider h hasks
  · exact hmasks.2 before hbefore
  · exact inScope_of_within hwithin (hmasks.2 before hbefore)

/-- A match that fails did so before. -/
theorem FailsAt.of_wider (h : x.mask.Wider mask) {fault : Fault}
    (hfails : Entry.FailsAt { x with mask } v m fault) : x.FailsAt v m fault := by
  obtain ⟨htouches, ⟨filter, hasks⟩, hfault⟩ := hfails
  obtain ⟨before, hbefore, _⟩ := AsksFor.of_wider h hasks
  exact ⟨htouches, ⟨before, hbefore⟩, hfault⟩

/-- The key of a placement's decoration, and its stretch. -/
def mark (base : String) (p : Placement) : String × Stretch := (keyOf base p, p.stretch)

/-- A wider mask puts a match where the narrower one does, under the same key. -/
theorem mark_placementOf (h : x.mask.Wider mask) (m : Regex.Found) :
    mark x.base (placementOf (Entry.sight { x with mask } v) m) =
      mark x.base (placementOf (x.sight v) m) := by
  unfold mark placementOf keyOf
  rcases h.override? (v.textOf m) with ⟨hnone, hnone'⟩ | ⟨o, o', ho, ho', hwider⟩
  · simp only [show x.mask.override? (Regex.slice _ m.start m.stop) = none from hnone,
      show mask.override? (Regex.slice _ m.start m.stop) = none from hnone', h.hover]
  · simp only [show x.mask.override? (Regex.slice _ m.start m.stop) = some o from ho,
      show mask.override? (Regex.slice _ m.start m.stop) = some o' from ho', hwider.hover]
    rfl

/-- Under wider filters all is decorated that was, in the same places. -/
theorem decorates_of_wider (h : x.mask.Wider mask) {ps : List Placement}
    (hdecorates : x.decorates v = .ok ps) :
    ∃ ps', Entry.decorates { x with mask } v = .ok ps' ∧
      (ps.map (mark x.base)).Sublist (ps'.map (mark x.base)) := by
  unfold decorates at hdecorates ⊢
  cases hfailure : failure? (x.decided v) with
  | some fault => rw [hfailure] at hdecorates; cases hdecorates
  | none =>
    rw [hfailure] at hdecorates
    cases hdecorates
    obtain ⟨hfine, hplacements⟩ := x.placements_of_failure? hfailure
    cases hfailure' : failure? (Entry.decided { x with mask } v) with
    | some fault =>
      -- the match that fails would have failed before
      obtain ⟨before, m, rest, hfound, hfails, _⟩ := failsAt_of_failure? _ hfailure'
      have hm : m ∈ x.found v := by
        rw [show x.found v = before ++ m :: rest from hfound]
        simp
      exact absurd (FailsAt.of_wider h hfails) (hfine m hm fault)
    | none =>
      refine ⟨_, rfl, ?_⟩
      rw [hplacements, (placements_of_failure? _ hfailure').2, List.map_map, List.map_map]
      have hmarks : mark x.base ∘ placementOf (Entry.sight { x with mask } v) =
          mark x.base ∘ placementOf (x.sight v) := funext fun m => mark_placementOf h m
      rw [hmarks]
      refine List.Sublist.map _ (List.monotone_filter_right _ fun m hm => ?_)
      rw [decide_eq_true_eq] at hm ⊢
      exact hm.wider h

/-- Where the host grants every call and no match fails, an application returns. -/
theorem exists_apply {m : Masking} {host : String} (h : m.decorations.Serves host)
    (hscene : m.scene? v.caretStyle = .ok (some v)) (hdecided : failure? (x.decided v) = none) :
    ∃ n m', Masking.apply x.pattern x.mask v.caretStyle m = .ok n m' := by
  have heditor : m.editor? = some host := h.host
  simp only [Masking.scene?, heditor] at hscene
  cases hdocument : m.decorations.desk.document? host with
  | none => simp [hdocument] at hscene
  | some document =>
    cases hends : m.decorations.desk.ends host with
    | error fault => simp [hdocument, hends, Except.map] at hscene
    | ok ends =>
      have hv : ⟨document, ends, m.scopes, v.caretStyle⟩ = v := by
        simpa [hdocument, hends, Except.map] using hscene
      obtain ⟨_, m₁, happly, _, hsends, hbase, _⟩ :=
        apply_eq_draw x v.caretStyle h hdocument hends
      rw [hv] at happly
      obtain ⟨_, _, _, m₂, hdraw, _⟩ := draw_sends hsends.serves hbase hdecided
      exact ⟨_, m₂, happly.trans hdraw⟩

/-- Scope filters are dotted prefixes: a scope lies within a filter that is not empty when the
components of the filter come first among its own. This is an order on the names that are not empty.
A filter that another lies within holds all tokens that the other holds; and an entry under such
filters decorates all matches that it did before, in the same places, in every document and with any
selections, scopes and caret. An application under them returns where the one before did and the
host grants every call; and then all that was given to the host is given again, maybe among more. -/
theorem filters_are_prefixes :
    (∀ scope filter, Scope.within scope filter = true ↔
      filter ≠ "" ∧ Scope.components filter.toList <+: Scope.components scope.toList) ∧
    (∀ s, s ≠ "" → Scope.within s s = true) ∧
    (∀ s g f, Scope.within s g = true → Scope.within g f = true → Scope.within s f = true) ∧
    (∀ s f, Scope.within s f = true → Scope.within f s = true → s = f) ∧
    (∀ g f, Scope.within g f = true → ∀ token : Token,
      token.within g = true → token.within f = true) ∧
    ∀ (x : Entry) (mask : Mask), x.mask.Wider mask → ∀ v : Scene,
      (∀ ps, x.decorates v = .ok ps → ∃ ps', Entry.decorates { x with mask } v = .ok ps' ∧
        (ps.map (mark x.base)).Sublist (ps'.map (mark x.base))) ∧
      ∀ (m m₁ : Masking) (host : String) (n : Nat), m.decorations.Stands host →
        m.scene? v.caretStyle = .ok (some v) →
        Masking.apply x.pattern x.mask v.caretStyle m = .ok n m₁ →
        (m.decorations.Serves host →
          ∃ n' m₂, Masking.apply x.pattern mask v.caretStyle m = .ok n' m₂) ∧
        ∀ n' m₂, Masking.apply x.pattern mask v.caretStyle m = .ok n' m₂ →
          ∃ ps ps', n = ps.length ∧ n' = ps'.length ∧
            (ps.map (mark x.base)).Sublist (ps'.map (mark x.base)) ∧
            (m.decorations.desk.names host = true →
              Gives host x.base ps m m₁ ∧ Gives host x.base ps' m m₂) := by
  refine ⟨Scope.within_iff_components, fun _ h => Scope.within_self h,
    fun _ _ _ h h' => Scope.within_trans h h', fun _ _ h h' => Scope.within_antisymm h h',
    fun _ _ h token htoken => Scope.token_within h token htoken, fun x mask hwider v => ?_⟩
  refine ⟨fun ps hps => decorates_of_wider hwider hps,
    fun m m₁ host n hstands hscene happly => ?_⟩
  obtain ⟨ps, hps, hn, hgives⟩ := decorates_of_apply hstands hscene happly
  obtain ⟨ps', hps', hmarks⟩ := decorates_of_wider hwider hps
  -- a wider filter asks no more of the tokenizer than the narrower one did
  refine ⟨fun hserves => exists_apply (x := { x with mask }) hserves hscene ?_, ?_⟩
  · unfold decorates at hps'
    split at hps'
    · cases hps'
    next hdecided => exact hdecided
  · intro n' m₂ happly'
    obtain ⟨ps'', hps'', hn', hgives'⟩ :=
      decorates_of_apply (x := { x with mask }) hstands hscene happly'
    obtain rfl := Except.ok.inj (hps'.symm.trans hps'')
    exact ⟨ps, ps', hn, hn', hmarks, fun hnames => ⟨hgives hnames, hgives' hnames⟩⟩

/-- Masking of an editor with two letters, each in a scope of its own. -/
def sorted : Masking :=
  { plain with
    scopes :=
      { document := some { text := "a b" }
        tokenizer := some
          { serial := 1
            scopeName := "text"
            tokenize := fun _ previous =>
              .ok ⟨[⟨0, 1, ["text.first"]⟩, ⟨1, 3, ["text.other"]⟩], previous.getD ⟨[]⟩⟩ } } }

/-- An entry for both letters that asks for the scope of the first. -/
def firstLetter : Entry :=
  (Entry.read? (.obj [("pattern", .str "a|b"), ("scope", .str "text.first")])).get
    (by decide +kernel)

/-- With a filter that holds the scopes of both letters, both are decorated. -/
theorem letters_held : ∃ (ps ps' : List Placement) (m₂ : Masking),
    Masking.apply firstLetter.pattern { firstLetter.mask with scope := some "text" } "line" sorted =
      .ok 2 m₂ ∧ ps.length = 1 ∧ ps'.length = 2 ∧
    (ps.map (mark firstLetter.base)).Sublist (ps'.map (mark firstLetter.base)) ∧
    Gives "e" firstLetter.base ps' sorted m₂ := by
  let v : Scene := ⟨{ text := "a b" }, [], sorted.scopes, "line"⟩
  have hwithin : Scope.within "text.first" "text" = true := by decide +kernel
  have hwider : firstLetter.mask.Wider { firstLetter.mask with scope := some "text" } :=
    ⟨.same none, .within hwithin, rfl, rfl⟩
  have hstands : sorted.decorations.Stands "e" := ⟨rfl, rfl⟩
  have hserves : sorted.decorations.Serves "e" := ⟨⟨_, rfl, ⟨rfl, fun _ => rfl⟩⟩, rfl⟩
  have hone : Step.outcome (Masking.apply firstLetter.pattern firstLetter.mask "line") sorted =
      .ok 1 := by decide +kernel
  have hboth : Step.outcome (Masking.apply firstLetter.pattern
      { firstLetter.mask with scope := some "text" } "line") sorted = .ok 2 := by decide +kernel
  obtain ⟨-, -, -, -, -, hfilters⟩ := filters_are_prefixes
  obtain ⟨hreturns, hgiven⟩ := (hfilters firstLetter _ hwider v).2 sorted _ "e" 1 hstands rfl
    (Step.eq_of_outcome hone)
  obtain ⟨n', m₂, happly⟩ := hreturns hserves
  obtain ⟨ps, ps', hlength, hlength', hmarks, hgives⟩ := hgiven n' m₂ happly
  have hn : n' = 2 := by
    rw [Step.eq_of_outcome hboth] at happly
    cases happly
    rfl
  subst hn
  exact ⟨ps, ps', m₂, happly, hlength.symm, hlength'.symm, hmarks, (hgives rfl).2⟩

end Entry

end Conceal
