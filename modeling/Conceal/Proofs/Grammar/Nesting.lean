import Conceal.Proofs.Grammar.Progress
import Mathlib.Data.List.Chain

/-!
Blocks lie one inside the other. A frame that is opened takes its scopes from the frame below it and
the names of its rule, so every state that a grammar leaves is a chain of such frames on the root's;
and a token has the scopes of the innermost block before its own. Main statement: `nested_of_left`.
-/

namespace Conceal

namespace Grammar

variable {g : Grammar} {text : Array Char} {scan next : Scan} {below f : Frame} {s : LineState}

/-! ## Frames -/

/-- A frame is of a block that was opened right inside another one: its rule opens blocks, there is
a pattern that ends it, and its scopes are those of the content around it with the names of the
rule. -/
structure OpenedIn (g : Grammar) (below f : Frame) : Prop where
  rule : ∃ rule, g.rules[f.rule]? = some rule ∧ rule.beginning.isSome ∧
    f.scopes = below.contentScopes ++ rule.name.toList ∧
    f.contentScopes = f.scopes ++ rule.contentName.toList
  ending : f.endSource.isSome

/-- The frames of a state: the root's frame, and on it frames that were each opened in the one
below. -/
structure Nested (g : Grammar) (s : LineState) : Prop where
  bottom : s.frames.head? = some g.initialFrame
  chain : s.frames.IsChain (OpenedIn g)

/-- In the beginning the root's frame is alone. -/
theorem nested_initialState (g : Grammar) : Nested g g.initialState :=
  ⟨rfl, List.isChain_singleton _⟩

/-- A block that is opened in the innermost one goes on top of it. -/
theorem Nested.push (h : Nested g s) (htop : s.top? = some below) (hf : OpenedIn g below f) :
    Nested g (s.push f) := by
  constructor
  · rw [LineState.push, List.head?_append, h.bottom]
    rfl
  · rw [LineState.push, List.isChain_append]
    refine ⟨h.chain, List.isChain_singleton _, ?_⟩
    intro x hx y hy
    rw [LineState.top?] at htop
    rw [htop] at hx
    cases hx
    cases hy
    exact hf

/-- The root's frame is never left. -/
theorem Nested.pop (h : Nested g s) : Nested g s.pop := by
  unfold LineState.pop
  split
  · exact h
  next hlen =>
    refine ⟨?_, h.chain.dropLast⟩
    rw [List.head?_dropLast, if_pos (by omega)]
    exact h.bottom

/-- The scopes of a block start with the grammar's, and those of its content with its own. -/
theorem Nested.scopes (h : Nested g s) (hf : f ∈ s.frames) :
    [g.scopeName] <+: f.scopes ∧ f.scopes <+: f.contentScopes := by
  refine h.chain.induction
    (fun f => [g.scopeName] <+: f.scopes ∧ f.scopes <+: f.contentScopes) _ ?_ ?_ f hf
  · rintro x y ⟨⟨rule, _, _, hscopes, hcontent⟩, _⟩ ⟨hroot, hown⟩
    constructor
    · rw [hscopes]
      exact (hroot.trans hown).trans (List.prefix_append _ _)
    · rw [hcontent]
      exact List.prefix_append _ _
  · intro hne
    have hhead : s.frames.head hne = g.initialFrame := by
      have := h.bottom
      rwa [List.head?_eq_some_head hne, Option.some.injEq] at this
    rw [hhead]
    exact ⟨List.prefix_refl _, List.prefix_refl _⟩

/-- The root's frame has no pattern that ends it, so a block that has one is not the outermost. -/
theorem Nested.depth_of_ending (h : Nested g s) (htop : s.top? = some f)
    (hending : f.endSource.isSome) : 1 < s.depth := by
  by_contra hdepth
  have hbottom := h.bottom
  obtain ⟨frames⟩ := s
  match frames with
  | [] => cases htop
  | [root] =>
    cases htop
    cases hbottom
    cases hending
  | _ :: _ :: _ => exact hdepth (Nat.succ_lt_succ (Nat.succ_pos _))

/-! ## Tokens -/

/-- Tokens that are added have certain scopes first. -/
def Adds (scopes : List String) (tokens tokens' : Array Token) : Prop :=
  ∃ new, tokens'.toList = tokens.toList ++ new ∧ ∀ t ∈ new, scopes <+: t.scopes

section adds

variable {scopes scopes' : List String} {tokens tokens' tokens'' : Array Token}

theorem Adds.refl (scopes : List String) (tokens : Array Token) : Adds scopes tokens tokens :=
  ⟨[], (List.append_nil _).symm, by simp⟩

/-- Tokens that are added twice with the same scopes first have them first. -/
theorem Adds.trans (h : Adds scopes tokens tokens') (h' : Adds scopes tokens' tokens'') :
    Adds scopes tokens tokens'' := by
  obtain ⟨new, hnew, hscopes⟩ := h
  obtain ⟨new', hnew', hscopes'⟩ := h'
  refine ⟨new ++ new', by rw [hnew', hnew, List.append_assoc], ?_⟩
  intro t ht
  rcases List.mem_append.mp ht with ht | ht
  · exact hscopes t ht
  · exact hscopes' t ht

private theorem mem_stretch {start stop : Nat} {t : Token} (h : t ∈ stretch start stop scopes) :
    t = ⟨start, stop, scopes⟩ := by
  unfold stretch at h
  split at h
  · exact List.mem_singleton.mp h
  · cases h

/-- A token is added with the scopes of its block first. -/
theorem adds_emit (h : scopes <+: scopes') (tokens : Array Token) (start stop : Nat) :
    Adds scopes tokens (emit tokens start stop scopes') := by
  refine ⟨_, toList_emit tokens start stop scopes', ?_⟩
  intro t ht
  rw [mem_stretch ht]
  exact h

/-- So are the tokens of groups. -/
theorem adds_emitSpans (h : scopes <+: scopes') (spans : List (Nat × Nat × String)) (cursor : Nat)
    (tokens : Array Token) : Adds scopes tokens (emitSpans scopes' spans cursor tokens).2 := by
  induction spans generalizing cursor tokens with
  | nil => exact .refl _ _
  | cons span rest ih =>
    obtain ⟨a, b, name⟩ := span
    simp only [emitSpans]
    split
    · exact ih cursor tokens
    · -- what lies before the group, then the group, then the rest
      have hgap := adds_emit h tokens cursor a
      have hown := adds_emit (h.trans (List.prefix_append scopes' [name]))
        (emit tokens cursor a scopes') a b
      exact (hgap.trans hown).trans (ih b _)

/-- So are the tokens of a whole match. -/
theorem adds_emitMatch {m : Regex.Found} {groupCount : Nat} {captures : Captures}
    (h : scopes <+: scopes')
    (hemit : emitMatch tokens m groupCount scopes' captures = .ok tokens') :
    Adds scopes tokens tokens' := by
  obtain ⟨spans, _, hemit⟩ := bind_eq_ok.mp hemit
  have hwhole := h.trans (List.prefix_append scopes' (wholeName captures))
  rw [← Except.ok.inj hemit]
  exact (adds_emitSpans hwhole _ _ _).trans (adds_emit hwhole _ _ _)

end adds

/-! ## Steps -/

/-- What a scan chooses is offered in the innermost block. -/
theorem offers_of_choice? {c : Choice} (h : scan.choice? g text = some c) :
    ∃ f, scan.state.top? = some f ∧ Offers g text scan.pos f c := by
  unfold Scan.choice? at h
  split at h
  · cases h
  next f htop =>
    split at h
    next hmove =>
      cases h
      exact ⟨f, htop, offers_of_move hmove⟩
    · cases h

/-- A match that ends a block is not offered in the outermost one. -/
theorem Nested.depth_of_offers (h : Nested g s) {pos : Nat} {c : Choice} (htop : s.top? = some f)
    (hc : Offers g text pos f c) (hkind : c.kind = .ending) : 1 < s.depth := by
  cases hc with
  | ending hsource _ _ _ => exact h.depth_of_ending htop (by rw [hsource]; rfl)
  | rule _ _ _ => cases hkind

/-- A step opens blocks inside the innermost one only. -/
theorem nested_of_step (hg : Placed g.rules) (hscan : Nested g scan.state)
    (h : scan.step g text = .ok (some next)) : Nested g next.state := by
  rcases step_state h with hsame | ⟨frame, c, htop, hmove, hafter⟩
  · rw [hsame]
    exact hscan
  · unfold Choice.stateAfter at hafter
    split at hafter
    · rw [← Except.ok.inj hafter]
      exact hscan.pop
    next hkind =>
      split at hafter
      next hopens =>
        obtain ⟨ending, _, hafter⟩ := bind_eq_ok.mp hafter
        obtain ⟨i, hi⟩ := rule_of_move hmove
        -- the frame names its rule by the place that the rule itself names
        have hrule : g.rules[c.rule.id]? = some c.rule := by rwa [hg i c.rule hi]
        have hscopes : c.scopes frame = frame.contentScopes ++ c.rule.name.toList := by
          simp only [Choice.scopes, hkind]
        rw [← Except.ok.inj hafter]
        exact hscan.push htop ⟨⟨c.rule, hrule, hopens, hscopes, rfl⟩, rfl⟩
      · rw [← Except.ok.inj hafter]
        exact hscan

/-- The scopes of a match start with those of the block that it is found in. -/
theorem prefix_scopes (h : f.scopes <+: f.contentScopes) (c : Choice) :
    f.scopes <+: c.scopes f := by
  unfold Choice.scopes
  split
  · exact List.prefix_refl _
  · exact h.trans (List.prefix_append _ _)

/-- The tokens that a step adds have the scopes of the innermost block first. -/
theorem adds_of_step (htop : scan.state.top? = some f) (hf : f.scopes <+: f.contentScopes)
    (h : scan.step g text = .ok (some next)) : Adds f.scopes scan.tokens next.tokens := by
  unfold Scan.step at h
  simp only [htop] at h
  obtain ⟨move, _, h⟩ := bind_eq_ok.mp h
  cases move with
  | rest => cases h
  | skip stop =>
    cases h
    exact adds_emit hf _ _ _
  | take c =>
    obtain ⟨after, htake, h⟩ := bind_eq_ok.mp h
    obtain ⟨tokens, hemit, htake⟩ := bind_eq_ok.mp htake
    obtain ⟨state, _, htake⟩ := bind_eq_ok.mp htake
    cases h
    cases htake
    exact (adds_emit hf _ _ _).trans (adds_emitMatch (prefix_scopes hf c) hemit)

/-- What stands behind the last match has the scopes of the innermost block first. -/
theorem adds_finish (htop : scan.state.top? = some f) (hf : f.scopes <+: f.contentScopes)
    (length : Nat) : ∃ new, (scan.finish length).tokens = scan.tokens.toList ++ new ∧
      ∀ t ∈ new, f.scopes <+: t.scopes := by
  rw [tokens_finish htop]
  dsimp only
  split
  next hnil =>
    rw [(List.append_eq_nil_iff.mp hnil).1]
    exact ⟨_, rfl, by simpa using hf⟩
  · refine ⟨_, rfl, ?_⟩
    intro t ht
    rw [mem_stretch ht]
    exact hf

/-! ## Lines -/

/-- What a grammar can have left: nothing before the first line, and then the state after each line
that is tokenized. -/
inductive Left (g : Grammar) : Previous → Prop
  | nothing : Left g .nothing
  | line {previous : Previous} {line : String} {r : LineTokens} (h : Left g previous)
      (hr : g.tokenizeLine line previous = .ok r) : Left g (.state r.state)

/-- The scans that a line goes through. -/
inductive Visited (g : Grammar) (line : String) (previous : Previous) : Scan → Prop
  | start {s : LineState} (hstart : startState g previous = .ok s) :
      Visited g line previous (.start s)
  | step {scan next : Scan} (h : Visited g line previous scan)
      (hstep : scan.step g line.toList.toArray = .ok (some next)) : Visited g line previous next

/-- A token is added to a line while a frame is the innermost one: by a step of the scan, or where
the line ends. -/
inductive Emitted (g : Grammar) (line : String) (previous : Previous) (f : Frame) (t : Token) : Prop
  | step {scan next : Scan} {new : List Token} (hscan : Visited g line previous scan)
      (htop : scan.state.top? = some f)
      (hstep : scan.step g line.toList.toArray = .ok (some next))
      (hnew : next.tokens.toList = scan.tokens.toList ++ new) (ht : t ∈ new)
  | finish {last : Scan} {new : List Token} (hlast : Visited g line previous last)
      (htop : last.state.top? = some f) (hover : last.step g line.toList.toArray = .ok none)
      (hnew : (last.finish line.length).tokens = last.tokens.toList ++ new) (ht : t ∈ new)

variable {line : String} {previous : Previous} {r : LineTokens}

/-- The scan of a line that is tokenized goes on until nothing matches any more. -/
theorem visited_last {n : Nat} {outcome : Except Fault Scan} {last : Scan}
    (h : Scans g line.toList.toArray n scan outcome) (hscan : Visited g line previous scan)
    (hlast : outcome = .ok last) :
    Visited g line previous last ∧ last.step g line.toList.toArray = .ok none := by
  induction h with
  | done hover =>
    cases hlast
    exact ⟨hscan, hover⟩
  | failed _ => cases hlast
  | step hstep _ ih => exact ih (.step hscan hstep) hlast

/-- A line that is tokenized ends with a scan that has nothing left to do. -/
theorem last_of_tokenizeLine (h : g.tokenizeLine line previous = .ok r) :
    ∃ last, Visited g line previous last ∧ last.step g line.toList.toArray = .ok none ∧
      r = last.finish line.length := by
  obtain ⟨s, _, hstart, _⟩ := scan_of_tokenizeLine h
  obtain ⟨n, _, hscans⟩ := scans_line g line s
  rw [tokenizeLine_eq hstart] at h
  cases hlast : scanLine g line.toList.toArray (scanFuel g line.length) (.start s) with
  | error fault =>
    rw [hlast] at h
    cases h
  | ok last =>
    rw [hlast] at h
    cases h
    obtain ⟨hvisited, hover⟩ := visited_last hscans (.start hstart) hlast
    exact ⟨last, hvisited, hover, rfl⟩

/-- Frames are nested throughout a line if they are so where it begins. -/
theorem nested_of_visited (hg : Placed g.rules)
    (hstart : ∀ s, startState g previous = .ok s → Nested g s)
    (h : Visited g line previous scan) : Nested g scan.state := by
  induction h with
  | start hs => exact hstart _ hs
  | step _ hstep ih => exact nested_of_step hg ih hstep

theorem eq_of_startState {s' : LineState} (h : startState g (.state s) = .ok s') : s = s' := by
  simp only [startState] at h
  split at h
  · cases h
    rfl
  · cases h

/-- A line starts in nested blocks, whatever lines came before it. -/
theorem Left.nested_start (h : Left g previous) (hg : Placed g.rules) :
    ∀ s, startState g previous = .ok s → Nested g s := by
  induction h with
  | nothing =>
    intro s hs
    cases hs
    exact nested_initialState g
  | line _ hr ih =>
    intro s hs
    obtain ⟨last, hvisited, _, rfl⟩ := last_of_tokenizeLine hr
    rw [← eq_of_startState hs]
    exact nested_of_visited hg ih hvisited

/-- There is always an innermost block; its content has the scopes of the block first, and they have
the grammar's first. -/
theorem Nested.exists_top (h : Nested g s) : ∃ f, s.top? = some f ∧
    [g.scopeName] <+: f.scopes ∧ f.scopes <+: f.contentScopes := by
  have hne : s.frames ≠ [] := by
    intro hnil
    have hbottom := h.bottom
    rw [hnil] at hbottom
    cases hbottom
  exact ⟨_, List.getLast?_eq_some_getLast hne, h.scopes (List.getLast_mem hne)⟩

section lines

variable (hnested : ∀ scan, Visited g line previous scan → Nested g scan.state)

include hnested

/-- A token has the scopes of the block that it is in before its own. -/
theorem Emitted.scopes {t : Token} (h : Emitted g line previous f t) :
    [g.scopeName] <+: f.scopes ∧ f.scopes <+: t.scopes := by
  cases h with
  | step hscan htop hstep hnew ht =>
    obtain ⟨top, htop', hroot, hcontent⟩ := (hnested _ hscan).exists_top
    cases htop.symm.trans htop'
    obtain ⟨new, hnew', hscopes⟩ := adds_of_step htop hcontent hstep
    -- what is new is determined by the tokens before and after
    cases List.append_cancel_left (hnew.symm.trans hnew')
    exact ⟨hroot, hscopes _ ht⟩
  | finish hlast htop _ hnew ht =>
    obtain ⟨top, htop', hroot, hcontent⟩ := (hnested _ hlast).exists_top
    cases htop.symm.trans htop'
    obtain ⟨new, hnew', hscopes⟩ := adds_finish htop hcontent line.length
    cases List.append_cancel_left (hnew.symm.trans hnew')
    exact ⟨hroot, hscopes _ ht⟩

/-- Every token of a scan was added by a step of it. -/
theorem emitted_of_visited (h : Visited g line previous scan) :
    ∀ t ∈ scan.tokens.toList, ∃ f, Emitted g line previous f t := by
  induction h with
  | start _ =>
    intro t ht
    cases ht
  | step hscan hstep ih =>
    intro t ht
    obtain ⟨f, htop, _, hcontent⟩ := (hnested _ hscan).exists_top
    obtain ⟨new, hnew, _⟩ := adds_of_step htop hcontent hstep
    rw [hnew] at ht
    rcases List.mem_append.mp ht with ht | ht
    · exact ih t ht
    · exact ⟨f, .step hscan htop hstep hnew ht⟩

/-- Every token of a line was added by some step of it, or at its end. -/
theorem emitted_of_tokenizeLine (h : g.tokenizeLine line previous = .ok r) :
    ∀ t ∈ r.tokens, ∃ f, Emitted g line previous f t := by
  obtain ⟨last, hlast, hover, rfl⟩ := last_of_tokenizeLine h
  intro t ht
  obtain ⟨f, htop, _, hcontent⟩ := (hnested _ hlast).exists_top
  obtain ⟨new, hnew, _⟩ := adds_finish htop hcontent line.length
  rw [hnew] at ht
  rcases List.mem_append.mp ht with ht | ht
  · exact emitted_of_visited hnested hlast t ht
  · exact ⟨f, .finish hlast htop hover hnew ht⟩

end lines

/-- Whatever lines a grammar has tokenized, the next one leaves a state that the grammar takes back:
the root's frame, and on it frames that were each opened in the one below, with the scopes of that
one's content and the names of its rule. All scans on the way have such a state, and none of them
ends the root's block. Every token is added while some frame is the innermost one and has its scopes
first, so the first scope of every token is the grammar's. -/
theorem nested_of_left {source : String} {raw : Json} (hg : ofJson source raw = .ok g)
    (hprevious : Left g previous) (hr : g.tokenizeLine line previous = .ok r) :
    startState g (.state r.state) = .ok r.state ∧ Nested g r.state ∧
      (∀ scan, Visited g line previous scan → Nested g scan.state ∧
        ∀ c ∈ scan.choice? g line.toList.toArray, c.kind = .ending → 1 < scan.state.depth) ∧
      (∀ f t, Emitted g line previous f t → f.scopes <+: t.scopes) ∧
      ∀ t ∈ r.tokens, (∃ f, Emitted g line previous f t) ∧ t.scopes.head? = some g.scopeName := by
  obtain ⟨hplaced, hsize⟩ := placed_of_ofJson hg
  have hnested : ∀ scan, Visited g line previous scan → Nested g scan.state :=
    fun _ => nested_of_visited hplaced (hprevious.nested_start hplaced)
  have howns : startState g (.state r.state) = .ok r.state :=
    if_pos (owns_of_tokenizeLine hplaced hsize hr)
  -- the state that is left is that of the last place visited
  have hlast : Nested g r.state := by
    obtain ⟨last, hvisited, _, rfl⟩ := last_of_tokenizeLine hr
    exact hnested last hvisited
  refine ⟨howns, hlast, ?_, fun f t ht => (ht.scopes hnested).2, ?_⟩
  · intro scan hscan
    refine ⟨hnested scan hscan, ?_⟩
    intro c hc hkind
    obtain ⟨f, htop, hoffers⟩ := offers_of_choice? hc
    exact (hnested scan hscan).depth_of_offers htop hoffers hkind
  · intro t ht
    obtain ⟨f, hemitted⟩ := emitted_of_tokenizeLine hnested hr t ht
    obtain ⟨hroot, hown⟩ := hemitted.scopes hnested
    obtain ⟨rest, hrest⟩ := hroot.trans hown
    exact ⟨⟨f, hemitted⟩, by rw [← hrest]; rfl⟩

/-- Brackets inside brackets. -/
def brackets : Json :=
  .obj [("scopeName", .str "s"),
    ("patterns", .arr [.obj [("begin", .str "[(]"), ("end", .str "[)]"), ("name", .str "b"),
      ("contentName", .str "c"), ("patterns", .arr [.obj [("include", .str "$self")]])]])]

/-- Two brackets are left open by one line, and one of them is closed by the next. -/
theorem brackets_nested :
    ∃ (g : Grammar) (r r' : LineTokens), ofJson anonymous brackets = .ok g ∧
      Left g (.state r.state) ∧ g.tokenizeLine ")" (.state r.state) = .ok r' ∧
      r.state.depth = 3 ∧ r'.state.depth = 2 ∧
      r'.tokens = [⟨0, 1, ["s", "b", "c", "b"]⟩] ∧
      startState g (.state r'.state) = .ok r'.state ∧ Nested g r'.state ∧
      ∀ t ∈ r'.tokens, t.scopes.head? = some g.scopeName := by
  have hrun : (do
      let g ← ofJson anonymous brackets
      let r ← g.tokenizeLine "(("
      let r' ← g.tokenizeLine ")" (.state r.state)
      return (r.state.depth, r'.state.depth, r'.tokens)).toOption
      = some (3, 2, [⟨0, 1, ["s", "b", "c", "b"]⟩]) := by
    decide +kernel
  cases hg : ofJson anonymous brackets with
  | error f => rw [hg] at hrun; cases hrun
  | ok g =>
    cases hr : g.tokenizeLine "((" with
    | error f => simp [hg, hr, bind, Except.bind, Except.toOption] at hrun
    | ok r =>
      cases hr' : g.tokenizeLine ")" (.state r.state) with
      | error f => simp [hg, hr, hr', bind, Except.bind, Except.toOption] at hrun
      | ok r' =>
        simp only [hg, hr, hr', bind, Except.bind, Except.toOption, pure, Except.pure,
          Option.some.injEq, Prod.mk.injEq] at hrun
        obtain ⟨hdepth, hdepth', htokens⟩ := hrun
        have hleft : Left g (.state r.state) := .line .nothing hr
        obtain ⟨howns, hnested, _, _, hscopes⟩ := nested_of_left hg hleft hr'
        exact ⟨g, r, r', rfl, hleft, hr', hdepth, hdepth', htokens, howns, hnested,
          fun t ht => (hscopes t ht).2⟩

end Grammar

end Conceal
