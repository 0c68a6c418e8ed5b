import Conceal.Proofs.Grammar.Tiling

/-!
The tokens of a match with named groups. The groups are gone through by their places, and one that
begins before the one taken last has ended is passed over; what the groups leave of the match
belongs to the match alone. If the groups lie in the match then its tokens lie side by side from its
start to its end. Main statement: `emitMatch_splits`.
-/

namespace Conceal

namespace Grammar

open Token (Tile)

/-- The stretch of a group and the name that it is given. -/
abbrev NamedSpan := Nat × Nat × String

variable {m : Regex.Found} {groupCount : Nat} {captures : Captures} {spans : List NamedSpan}

/-! ## The spans of groups -/

/-- The span of a group with a name: a group that does not exist or took no part has none, and
neither has one that is empty or the match as a whole. -/
def namedSpan? (m : Regex.Found) (groupCount : Nat) (named : Int × String) : Option NamedSpan :=
  if 0 < named.1 ∧ named.1 ≤ groupCount then
    (m.span? named.1.toNat).bind fun (a, b) => if a < b then some (a, b, named.2) else none
  else none

/-- A named group has a span if it took part in the match and is not empty. -/
theorem namedSpan?_eq_some_iff {named : Int × String} {s : NamedSpan} :
    namedSpan? m groupCount named = some s ↔ (0 < named.1 ∧ named.1 ≤ groupCount) ∧
      m.span? named.1.toNat = some (s.1, s.2.1) ∧ s.1 < s.2.1 ∧ s.2.2 = named.2 := by
  obtain ⟨a, b, name⟩ := s
  unfold namedSpan?
  split
  next hgroup =>
    rw [Option.bind_eq_some_iff]
    constructor
    · rintro ⟨⟨a', b'⟩, hspan, h⟩
      dsimp only at h
      split at h
      next hlt =>
        cases h
        exact ⟨hgroup, hspan, hlt, rfl⟩
      · cases h
    · rintro ⟨_, hspan, hlt, rfl⟩
      exact ⟨(a, b), hspan, if_pos hlt⟩
  next hgroup => exact iff_of_false (by simp) fun h => hgroup h.1

/-- Without negative numbers of groups there is nothing to fail. -/
theorem groupSpans_eq_ok (hkeys : ∀ named ∈ captures, 0 ≤ named.1) :
    groupSpans m groupCount captures = .ok (captures.filterMap (namedSpan? m groupCount)) := by
  induction captures with
  | nil => rfl
  | cons named rest ih =>
    obtain ⟨group, name⟩ := named
    obtain ⟨hgroup, hrest⟩ := List.forall_mem_cons.mp hkeys
    rw [groupSpans]
    split
    next hskip =>
      have hnone : namedSpan? m groupCount (group, name) = none := if_neg (by omega)
      rw [ih hrest, List.filterMap_cons, hnone]
    next hskip =>
      have htaken : namedSpan? m groupCount (group, name) =
          (m.span? group.toNat).bind fun (a, b) => if a < b then some (a, b, name) else none :=
        if_pos (by omega)
      rw [if_neg (not_lt.mpr hgroup), ih hrest, List.filterMap_cons, htaken]
      cases m.span? group.toNat with
      | none => rfl
      | some span =>
        obtain ⟨a, b⟩ := span
        by_cases hlt : a < b
        · simp [bind, Except.bind, pure, Except.pure, hlt]
        · simp [bind, Except.bind, pure, Except.pure, hlt, Nat.not_lt.mp hlt]

/-- One span comes no later than another: by its start, then by its end, then by its name. -/
def Ascends (s t : NamedSpan) : Prop :=
  s.1 < t.1 ∨ s.1 = t.1 ∧ (s.2.1 < t.2.1 ∨ s.2.1 = t.2.1 ∧ s.2.2 ≤ t.2.2)

theorem spanLe_iff {s t : NamedSpan} : spanLe s t = true ↔ Ascends s t := by
  simp [spanLe, Ascends]

/-- The order of spans is transitive. -/
theorem Ascends.trans {s t u : NamedSpan} (h : Ascends s t) (h' : Ascends t u) : Ascends s u := by
  rcases h with h | ⟨hs, h⟩
  · rcases h' with h' | ⟨ht, _⟩
    · exact Or.inl (lt_trans h h')
    · exact Or.inl (ht ▸ h)
  · rcases h' with h' | ⟨ht, h'⟩
    · exact Or.inl (hs ▸ h')
    · refine Or.inr ⟨hs.trans ht, ?_⟩
      rcases h with h | ⟨hs, h⟩
      · rcases h' with h' | ⟨ht, _⟩
        · exact Or.inl (lt_trans h h')
        · exact Or.inl (ht ▸ h)
      · rcases h' with h' | ⟨ht, h'⟩
        · exact Or.inl (hs ▸ h')
        · exact Or.inr ⟨hs.trans ht, String.le_trans h h'⟩

/-- Any two spans are in order, one way or the other. -/
theorem Ascends.total (s t : NamedSpan) : Ascends s t ∨ Ascends t s := by
  unfold Ascends
  have hnames := String.le_total s.2.2 t.2.2
  rcases lt_trichotomy s.1 t.1 with h | h | h
  · exact Or.inl (Or.inl h)
  · rcases lt_trichotomy s.2.1 t.2.1 with h' | h' | h'
    · exact Or.inl (Or.inr ⟨h, Or.inl h'⟩)
    · exact hnames.imp (fun hle => Or.inr ⟨h, Or.inr ⟨h', hle⟩⟩)
        fun hle => Or.inr ⟨h.symm, Or.inr ⟨h'.symm, hle⟩⟩
    · exact Or.inr (Or.inr ⟨h.symm, Or.inl h'⟩)
  · exact Or.inr (Or.inl h)

/-- Spans that are sorted ascend. -/
theorem sorted_mergeSort_spanLe (spans : List NamedSpan) :
    (spans.mergeSort spanLe).Pairwise Ascends := by
  have htrans : ∀ s t u, spanLe s t = true → spanLe t u = true → spanLe s u = true :=
    fun s t u h h' => spanLe_iff.mpr ((spanLe_iff.mp h).trans (spanLe_iff.mp h'))
  have htotal : ∀ s t, (spanLe s t || spanLe t s) = true := by
    intro s t
    rw [Bool.or_eq_true, spanLe_iff, spanLe_iff]
    exact Ascends.total s t
  exact (List.pairwise_mergeSort htrans htotal spans).imp spanLe_iff.mp

/-! ## Which spans are taken -/

/-- Spans are gone through in their order, and each is taken that begins where the one taken last
ended, or later. -/
inductive Picks : Option NamedSpan → List NamedSpan → List NamedSpan → Prop
  | nil {last : Option NamedSpan} : Picks last [] []
  | take {last : Option NamedSpan} {s : NamedSpan} {rest picked : List NamedSpan}
      (hfree : ∀ l ∈ last, l.2.1 ≤ s.1) (hrest : Picks (some s) rest picked) :
      Picks last (s :: rest) (s :: picked)
  | skip {last : Option NamedSpan} {l s : NamedSpan} {rest picked : List NamedSpan}
      (hlast : last = some l) (hlt : s.1 < l.2.1) (hrest : Picks last rest picked) :
      Picks last (s :: rest) picked

/-- Behind a span that was taken those are taken that start no earlier than it ends. -/
private theorem picks_after (l : NamedSpan) (spans : List NamedSpan) :
    Picks (some l) spans (chosenSpans spans l.2.1) := by
  induction spans generalizing l with
  | nil => exact .nil
  | cons s rest ih =>
    obtain ⟨a, b, name⟩ := s
    unfold chosenSpans
    split
    next hlt => exact .skip rfl hlt (ih l)
    next hle => exact .take (by simpa using hle) (ih (a, b, name))

/-- Of spans in a match the first is taken in any case. -/
theorem picks_chosenSpans {start : Nat} (hstart : ∀ s ∈ spans, start ≤ s.1) :
    Picks none spans (chosenSpans spans start) := by
  cases spans with
  | nil => exact .nil
  | cons s rest =>
    obtain ⟨a, b, name⟩ := s
    have hle : ¬ a < start := Nat.not_lt.mpr (hstart _ List.mem_cons_self)
    rw [chosenSpans, if_neg hle]
    exact .take (by simp) (picks_after (a, b, name) rest)

/-! ## Tokens with the name of a group -/

/-- The token of a group, in a match with certain scopes. -/
def groupToken (whole : List String) (s : NamedSpan) : Token := ⟨s.1, s.2.1, whole ++ [s.2.2]⟩

private theorem filter_stretch (start stop : Nat) (whole : List String) :
    (stretch start stop whole).filter (·.scopes ≠ whole) = [] := by
  unfold stretch
  split <;> simp

/-- A stretch of a group is one token of its own. -/
private theorem filter_stretch_group {whole : List String} {s : NamedSpan} (hs : s.1 < s.2.1) :
    (stretch s.1 s.2.1 (whole ++ [s.2.2])).filter (·.scopes ≠ whole) = [groupToken whole s] := by
  simp [stretch, hs, groupToken]

/-- The tokens that are added with more scopes than the match has are those of the groups chosen. -/
private theorem filter_emitSpans (whole : List String) (hspans : ∀ s ∈ spans, s.1 < s.2.1)
    (cursor : Nat) (tokens : Array Token) :
    (emitSpans whole spans cursor tokens).2.toList.filter (·.scopes ≠ whole) =
      tokens.toList.filter (·.scopes ≠ whole) ++
        (chosenSpans spans cursor).map (groupToken whole) := by
  induction spans generalizing cursor tokens with
  | nil => simp [emitSpans, chosenSpans]
  | cons s rest ih =>
    obtain ⟨a, b, name⟩ := s
    obtain ⟨hab, hrest⟩ := List.forall_mem_cons.mp hspans
    unfold emitSpans chosenSpans
    split
    · exact ih hrest cursor tokens
    · rw [ih hrest, toList_emit, toList_emit, List.filter_append, List.filter_append,
        filter_stretch, filter_stretch_group (s := (a, b, name)) hab, List.append_nil,
        List.append_assoc, List.map_cons, List.singleton_append]

/-- The groups taken in a match end in it, and so do their tokens. -/
private theorem emitSpans_fst_le {whole : List String} {start stop : Nat} (hmatch : start ≤ stop)
    (hspans : ∀ s ∈ spans, s.1 < s.2.1 ∧ s.2.1 ≤ stop) (tokens : Array Token) :
    (emitSpans whole spans start tokens).1 ≤ stop := by
  obtain ⟨_, hend⟩ := emitSpans_fst whole (fun s hs => (hspans s hs).1) start tokens
  rcases hend with hend | ⟨s, hs, hend⟩
  · rw [hend]
    exact hmatch
  · rw [← hend]
    exact (hspans s (mem_of_mem_chosenSpans hs)).2

/-! ## Matches -/

/-- The name of the whole match is that of group zero, if it says anything. -/
theorem wholeName_eq (captures : Captures) :
    wholeName captures = ((captures.lookup 0).filter (· ≠ "")).toList := by
  unfold wholeName
  split
  next name h =>
    rw [h]
    by_cases hname : name = "" <;> simp [Option.filter, hname]
  next h =>
    rw [h]
    rfl

/-- The spans of groups that lie in a match do so too. -/
theorem namedSpan?_inside
    (hinside : ∀ named ∈ captures, 0 < named.1 → named.1 ≤ groupCount →
      ∀ a b, m.span? named.1.toNat = some (a, b) → m.start ≤ a ∧ b ≤ m.stop) :
    ∀ s ∈ captures.filterMap (namedSpan? m groupCount),
      m.start ≤ s.1 ∧ s.1 < s.2.1 ∧ s.2.1 ≤ m.stop := by
  intro s hs
  obtain ⟨named, hnamed, hspan⟩ := List.mem_filterMap.mp hs
  obtain ⟨⟨hpos, hcount⟩, hspan, hlt, _⟩ := namedSpan?_eq_some_iff.mp hspan
  obtain ⟨hstart, hstop⟩ := hinside named hnamed hpos hcount _ _ hspan
  exact ⟨hstart, hlt, hstop⟩

/-- The tokens added for groups are followed by what is left of the match. -/
theorem emitMatch_eq_ok (hkeys : ∀ named ∈ captures, 0 ≤ named.1) (tokens : Array Token)
    (scopes : List String) :
    let whole := scopes ++ ((captures.lookup 0).filter (· ≠ "")).toList
    let run := emitSpans whole
      ((captures.filterMap (namedSpan? m groupCount)).mergeSort spanLe) m.start tokens
    emitMatch tokens m groupCount scopes captures = .ok (emit run.2 run.1 m.stop whole) := by
  intro whole run
  rw [emitMatch, groupSpans_eq_ok hkeys, wholeName_eq]
  rfl

/-- Tokens have the scopes of the match, or those of one of its groups too. -/
theorem scopes_of_filter {whole : List String} {new : List Token} {picked : List NamedSpan}
    (hnew : new.filter (·.scopes ≠ whole) = picked.map (groupToken whole)) :
    ∀ t ∈ new, t.scopes = whole ∨ ∃ name, t.scopes = whole ++ [name] := by
  intro t ht
  by_cases hscopes : t.scopes = whole
  · exact Or.inl hscopes
  · have hin : t ∈ new.filter (·.scopes ≠ whole) :=
      List.mem_filter.mpr ⟨ht, by simpa using hscopes⟩
    rw [hnew] at hin
    obtain ⟨s, _, rfl⟩ := List.mem_map.mp hin
    exact Or.inr ⟨s.2.2, rfl⟩

/-- If all named groups that take part in a match lie in it then the tokens added for it lie side by
side, none of them empty, from its start to its end. Each has the scopes given and the name of the
whole match, if there is one. The tokens with one more scope are those of groups: of the named
groups that are not empty, in ascending order, each is taken that begins where the one taken last
ended, or later. -/
theorem emitMatch_splits (tokens : Array Token) (scopes : List String) (hmatch : m.start ≤ m.stop)
    (hkeys : ∀ named ∈ captures, 0 ≤ named.1)
    (hinside : ∀ named ∈ captures, 0 < named.1 → named.1 ≤ groupCount →
      ∀ a b, m.span? named.1.toNat = some (a, b) → m.start ≤ a ∧ b ≤ m.stop) :
    let whole := scopes ++ ((captures.lookup 0).filter (· ≠ "")).toList
    ∃ after new ordered picked, emitMatch tokens m groupCount scopes captures = .ok after ∧
      after.toList = tokens.toList ++ new ∧ Tile m.start new m.stop ∧
      ordered.Perm (captures.filterMap (namedSpan? m groupCount)) ∧ ordered.Pairwise Ascends ∧
      Picks none ordered picked ∧
      (∀ t ∈ new, t.scopes = whole ∨ ∃ name, t.scopes = whole ++ [name]) ∧
      new.filter (·.scopes ≠ whole) = picked.map (groupToken whole) := by
  intro whole
  -- the groups that are named and take part, in ascending order
  set ordered := (captures.filterMap (namedSpan? m groupCount)).mergeSort spanLe
  have hbounds : ∀ s ∈ ordered, m.start ≤ s.1 ∧ s.1 < s.2.1 ∧ s.2.1 ≤ m.stop :=
    fun s hs => namedSpan?_inside hinside s (List.mem_mergeSort.mp hs)
  have hspans : ∀ s ∈ ordered, s.1 < s.2.1 := fun s hs => (hbounds s hs).2.1
  set run := emitSpans whole ordered m.start tokens
  have hemit : emitMatch tokens m groupCount scopes captures =
      .ok (emit run.2 run.1 m.stop whole) := emitMatch_eq_ok hkeys tokens scopes
  obtain ⟨grouped, hgrouped, htile⟩ := emitSpans_tile whole hspans m.start tokens
  have hle : run.1 ≤ m.stop := emitSpans_fst_le hmatch (fun s hs => (hbounds s hs).2) tokens
  -- what the scan adds has the scopes of the whole, but for the groups that it picks
  have hnamed : grouped.filter (·.scopes ≠ whole) =
      (chosenSpans ordered m.start).map (groupToken whole) := by
    have hall := filter_emitSpans whole hspans m.start tokens
    rw [hgrouped, List.filter_append] at hall
    exact List.append_cancel_left hall
  have hnew : (grouped ++ stretch run.1 m.stop whole).filter (·.scopes ≠ whole) =
      (chosenSpans ordered m.start).map (groupToken whole) := by
    rw [List.filter_append, filter_stretch, List.append_nil, hnamed]
  refine ⟨_, grouped ++ stretch run.1 m.stop whole, ordered, chosenSpans ordered m.start, hemit, ?_,
    htile.append (tile_stretch hle whole), List.mergeSort_perm _ _, sorted_mergeSort_spanLe _,
    picks_chosenSpans fun s hs => (hbounds s hs).1, scopes_of_filter hnew, hnew⟩
  rw [toList_emit, hgrouped, List.append_assoc]

/-- Names for groups that hold each other, and for others that are empty, took no part or do not
exist. -/
def nestedNames : Captures :=
  [(0, "m"), (1, "outer"), (4, "empty"), (2, "inner"), (3, "absent"), (5, "last"), (9, "missing")]

/-- Where they lie in a match. -/
def nestedMatch : Regex.Found :=
  ⟨1, 5, #[none, some (1, 3), some (1, 2), none, some (3, 3), some (3, 5)]⟩

/-- Of groups inside of groups, empty ones and missing ones, only the outer ones get tokens. -/
theorem nested_groups_split :
    ((Regex.compile "((a)b)(c)?(d*)(ef)").toOption.bind fun r =>
        r.search? "xabefy".toList.toArray 0) = some nestedMatch ∧
      nestedMatch.start ≤ nestedMatch.stop ∧ (∀ named ∈ nestedNames, 0 ≤ named.1) ∧
      (∀ named ∈ nestedNames, 0 < named.1 → named.1 ≤ 5 →
        ∀ a b, nestedMatch.span? named.1.toNat = some (a, b) →
          nestedMatch.start ≤ a ∧ b ≤ nestedMatch.stop) ∧
      ∃ after, emitMatch #[] nestedMatch 5 ["s"] nestedNames = .ok after ∧
        Tile 1 after.toList 5 ∧ after.toList =
          [⟨1, 2, ["s", "m", "inner"]⟩, ⟨2, 3, ["s", "m"]⟩, ⟨3, 5, ["s", "m", "last"]⟩] := by
  have hmatch : nestedMatch.start ≤ nestedMatch.stop := by decide
  have hkeys : ∀ named ∈ nestedNames, 0 ≤ named.1 := by decide
  have hinside : ∀ named ∈ nestedNames, ∀ span ∈ nestedMatch.span? named.1.toNat,
      nestedMatch.start ≤ span.1 ∧ span.2 ≤ nestedMatch.stop := by decide
  have hgroups : ∀ named ∈ nestedNames, 0 < named.1 → named.1 ≤ (5 : Nat) →
      ∀ a b, nestedMatch.span? named.1.toNat = some (a, b) →
        nestedMatch.start ≤ a ∧ b ≤ nestedMatch.stop :=
    fun named hnamed _ _ a b hspan => hinside named hnamed (a, b) hspan
  obtain ⟨after, new, _, _, hemit, hafter, htile, _⟩ :=
    emitMatch_splits #[] ["s"] hmatch hkeys hgroups
  have hspans : groupSpans nestedMatch 5 nestedNames =
      .ok [(1, 3, "outer"), (1, 2, "inner"), (3, 5, "last")] := rfl
  -- the inner group starts where the outer does and is shorter, so that it comes first
  have hordered : [(1, 3, "outer"), (1, 2, "inner"), (3, 5, "last")].mergeSort spanLe =
      [(1, 2, "inner"), (1, 3, "outer"), (3, 5, "last")] := by
    simp [List.mergeSort, spanLe]
  have htokens : (emitMatch #[] nestedMatch 5 ["s"] nestedNames).toOption.map Array.toList = some
      [⟨1, 2, ["s", "m", "inner"]⟩, ⟨2, 3, ["s", "m"]⟩, ⟨3, 5, ["s", "m", "last"]⟩] := by
    rw [emitMatch, hspans]
    simp only [bind, Except.bind, hordered]
    rfl
  rw [hemit] at htokens
  replace hafter : after.toList = new := hafter
  exact ⟨by decide +kernel, hmatch, hkeys, hgroups, after, hemit, hafter ▸ htile,
    Option.some.inj htokens⟩

end Grammar

end Conceal
