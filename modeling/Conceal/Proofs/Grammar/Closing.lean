import Conceal.Proofs.Grammar.Earliest
import Conceal.Proofs.Grammar.Nesting

/-!
Blocks at the end of a line. A match of the pattern that ends the innermost block is looked for
until nothing matches any more, and at the end of a line only an empty match that was made before
stops that. What is remembered of an empty match is the rule of the block and not the block, so of
blocks of one rule only one is closed there. Main statement: `open_block_of_tokenizeLine`.
-/

namespace Conceal

namespace Regex

variable {r : Regex} {text : Array Char} {pos tries : Nat} {m : Found}

/-- A match at a position starts there. -/
theorem start_of_matchAt? (h : r.matchAt? text pos = some m) : m.start = pos := by
  obtain ⟨_, _, rfl⟩ := Option.map_eq_some_iff.mp h
  rfl

/-- What is found by searching is a match where it starts. -/
theorem matchAt?_of_searchFrom (h : r.searchFrom text tries pos = some m) :
    r.matchAt? text m.start = some m := by
  induction tries generalizing pos with
  | zero => cases h
  | succ tries ih =>
    rcases firstOf_eq_some h with hhere | hlater
    · rw [start_of_matchAt? hhere]
      exact hhere
    · exact ih hlater

/-- A search that comes past a match finds one. -/
theorem exists_searchFrom {i : Nat} (hi : i < tries) (h : r.matchAt? text (pos + i) = some m) :
    ∃ m', r.searchFrom text tries pos = some m' := by
  induction tries generalizing pos i with
  | zero => omega
  | succ tries ih =>
    rw [searchFrom]
    cases hhere : r.matchAt? text pos with
    | some m' => exact ⟨m', rfl⟩
    | none =>
      cases i with
      | zero =>
        rw [Nat.add_zero, hhere] at h
        cases h
      | succ i => exact ih (Nat.lt_of_succ_lt_succ hi) (by rwa [Nat.add_right_comm])

/-- A search from the end of a text tries that place only. -/
theorem search?_size (r : Regex) (text : Array Char) :
    r.search? text text.size = r.matchAt? text text.size := by
  rw [search?, Nat.add_sub_cancel_left, searchFrom, searchFrom]
  cases r.matchAt? text text.size <;> rfl

/-- What matches at the end of a text is found from everywhere, unless something is found before. -/
theorem exists_search?_of_size (hpos : pos ≤ text.size) (h : r.search? text text.size = some m) :
    ∃ m', r.search? text pos = some m' := by
  rw [search?_size] at h
  have hplace : pos + (text.size - pos) = text.size := Nat.add_sub_cancel' hpos
  exact exists_searchFrom (i := text.size - pos) (by omega) (by rwa [hplace])

/-- What is found at the end of a text is found from there. -/
theorem search?_size_of_start (h : r.search? text pos = some m) (hstart : m.start = text.size) :
    r.search? text text.size = some m := by
  rw [search?_size, ← hstart]
  exact matchAt?_of_searchFrom h

end Regex

namespace Grammar

variable {g : Grammar} {text : Array Char} {scan next : Scan} {f : Frame} {line : String}
  {previous : Previous} {r : LineTokens}

/-! ## Empty matches that stop a scan -/

/-- A scan is over when nothing matches, or when what comes next is an empty match at the end of the
line that was made before. -/
theorem nextMatch_of_over (htop : scan.state.top? = some f) (h : scan.step g text = .ok none) :
    ∃ found, nextMatch g text scan.pos f = .ok found ∧ ∀ c ∈ found,
      c.isEmpty = true ∧ c.marker ∈ scan.emptySeen ∧ text.size ≤ c.found.start := by
  simp only [Scan.step, htop] at h
  obtain ⟨move, hmove, h⟩ := bind_eq_ok.mp h
  cases move with
  | skip stop => cases h
  | take c =>
    obtain ⟨after, _, h⟩ := bind_eq_ok.mp h
    cases h
  | rest =>
    obtain ⟨found, hnext, hmove⟩ := bind_eq_ok.mp hmove
    refine ⟨found, hnext, ?_⟩
    rintro c ⟨⟩
    simp only at hmove
    split at hmove
    next hseen =>
      rw [Bool.and_eq_true, List.contains_iff_mem] at hseen
      split at hmove
      next hend => exact ⟨hseen.1, hseen.2, hend⟩
      · cases hmove
    · cases hmove

/-- The pattern that ends the innermost block was read when the scan is over. -/
theorem endPattern_of_over (hrule : f.rule < g.rules.size) (htop : scan.state.top? = some f)
    (h : scan.step g text = .ok none) {ending : String} (hending : f.endSource = some ending) :
    ∃ pattern, g.endPattern ending = .ok pattern := by
  obtain ⟨found, hnext, _⟩ := nextMatch_of_over htop h
  cases hpattern : g.endPattern ending with
  | ok pattern => exact ⟨pattern, rfl⟩
  | error e =>
    have herror : nextMatch g text scan.pos f = .error e :=
      (nextMatch_eq_error_iff (Array.getElem?_eq_getElem hrule)).mpr ⟨ending, hending, hpattern⟩
    rw [hnext] at herror
    cases herror

/-- An empty match is remembered when a step takes it. -/
theorem emptySeen_of_step (h : scan.step g text = .ok (some next)) {m : Nat × MatchKind × Nat}
    (hm : m ∈ next.emptySeen) : m ∈ scan.emptySeen ∨
      ∃ c, scan.choice? g text = some c ∧ c.isEmpty = true ∧ c.marker = m := by
  unfold Scan.choice?
  cases htop : scan.state.top? with
  | none =>
    rw [Scan.step, htop] at h
    cases h
  | some frame =>
    simp only [Scan.step, htop] at h
    obtain ⟨move, hmove, h⟩ := bind_eq_ok.mp h
    cases move with
    | rest => cases h
    | skip stop =>
      cases h
      exact Or.inl hm
    | take c =>
      obtain ⟨after, htake, h⟩ := bind_eq_ok.mp h
      obtain ⟨tokens, _, htake⟩ := bind_eq_ok.mp htake
      obtain ⟨state, _, htake⟩ := bind_eq_ok.mp htake
      cases h
      cases htake
      -- a marker is added for an empty match only
      simp only at hm
      split at hm
      next hempty =>
        rcases List.mem_cons.mp hm with rfl | hm
        · exact Or.inr ⟨c, by simp only [hmove], hempty, rfl⟩
        · exact Or.inl hm
      · exact Or.inl hm

/-- What was noted as seen was an empty match that the scan has taken. -/
theorem exists_of_emptySeen (h : Visited g line previous scan) {m : Nat × MatchKind × Nat}
    (hm : m ∈ scan.emptySeen) :
    ∃ scan' next c, Visited g line previous scan' ∧
      scan'.step g line.toList.toArray = .ok (some next) ∧
      scan'.choice? g line.toList.toArray = some c ∧ c.isEmpty = true ∧ c.marker = m := by
  induction h with
  | start _ => cases hm
  | step hscan hstep ih =>
    rcases emptySeen_of_step hstep hm with hm | ⟨c, hc, hempty, hmarker⟩
    · exact ih hm
    · exact ⟨_, _, c, hscan, hstep, hc, hempty, hmarker⟩

theorem visited_inside (h : Visited g line previous scan) : scan.pos ≤ line.toList.toArray.size := by
  induction h with
  | start _ => exact Nat.zero_le _
  | step _ hstep ih =>
    obtain ⟨_, _, _, _, _, hle, hstop, _⟩ := step_tile ih hstep
    exact hle.trans hstop

/-! ## Blocks that are closed there -/

/-- A block is closed at the end of a line: it is the innermost one, and the scan takes a match there
of the pattern that ends it. -/
inductive ClosedAtEnd (g : Grammar) (line : String) (previous : Previous) (f : Frame) : Prop
  | step {scan next : Scan} {c : Choice} (hscan : Visited g line previous scan)
      (htop : scan.state.top? = some f) (hchoice : scan.choice? g line.toList.toArray = some c)
      (hkind : c.kind = .ending) (hstart : c.found.start = line.length)
      (hstep : scan.step g line.toList.toArray = .ok (some next))

theorem length_toArray (line : String) : line.toList.toArray.size = line.length := by
  rw [List.size_toArray, String.length_toList]

/-- A match that is taken of the pattern that ends a block is of the rule of the block. -/
theorem Offers.of_ending {pos : Nat} {c : Choice} (h : Offers g text pos f c)
    (hkind : c.kind = .ending) : g.rules[f.rule]? = some c.rule ∧
      ∃ source pattern, f.endSource = some source ∧ g.endPattern source = .ok pattern ∧
        pattern.search? text pos = some c.found := by
  cases h with
  | ending hsource hrule hpattern hfound => exact ⟨hrule, _, _, hsource, hpattern, hfound⟩
  | rule _ _ _ => cases hkind

/-- A block that is closed at the end has an end that matches there. -/
theorem ClosedAtEnd.found (h : ClosedAtEnd g line previous f) :
    ∃ source pattern m, f.endSource = some source ∧ g.endPattern source = .ok pattern ∧
      pattern.search? line.toList.toArray line.length = some m := by
  obtain ⟨_, htop, hchoice, hkind, hstart, _⟩ := h
  obtain ⟨f', htop', hoffers⟩ := offers_of_choice? hchoice
  cases htop.symm.trans htop'
  obtain ⟨_, source, pattern, hsource, hpattern, hfound⟩ := hoffers.of_ending hkind
  rw [← length_toArray] at hstart ⊢
  exact ⟨source, pattern, _, hsource, hpattern, Regex.search?_size_of_start hfound hstart⟩

section blocks

variable (hplaced : Placed g.rules)

include hplaced

/-- Behind an empty match that ends a block at the end of the line stands a block of its rule. -/
theorem closedAtEnd_of_emptySeen (h : Visited g line previous scan) {id : Nat}
    (hm : (line.length, MatchKind.ending, id) ∈ scan.emptySeen) :
    ∃ f, ClosedAtEnd g line previous f ∧ f.rule = id := by
  obtain ⟨scan', next, c, hscan, hstep, hchoice, _, hmarker⟩ := exists_of_emptySeen h hm
  obtain ⟨hstart, hkind, hid⟩ : c.found.start = line.length ∧ c.kind = .ending ∧ c.rule.id = id := by
    simpa [Choice.marker] using hmarker
  obtain ⟨f, htop, hoffers⟩ := offers_of_choice? hchoice
  have hrule := hplaced _ _ (hoffers.of_ending hkind).1
  exact ⟨f, ⟨hscan, htop, hchoice, hkind, hstart, hstep⟩, hrule.symm.trans hid⟩

/-- A block whose end matches at the end of a line and which yet stays open has been preceded there
by a block of its rule: the end comes before all rules, so the match that stopped the scan is of the
pattern that ends the block. -/
theorem closedAtEnd_of_over (hsize : f.rule < g.rules.size)
    (hcandidates : g.candidates.getD f.rule [] = candidatesOf g.rules f.rule)
    (hscan : Visited g line previous scan) (htop : scan.state.top? = some f)
    (hover : scan.step g line.toList.toArray = .ok none) {source : String} {pattern : Regex}
    {m : Regex.Found} (hsource : f.endSource = some source)
    (hpattern : g.endPattern source = .ok pattern)
    (hm : pattern.search? line.toList.toArray line.length = some m) :
    ∃ f', ClosedAtEnd g line previous f' ∧ f'.rule = f.rule := by
  have howner : g.rules[f.rule]? = some g.rules[f.rule] := Array.getElem?_eq_getElem hsize
  have hinside := visited_inside hscan
  rw [← length_toArray] at hm
  -- the pattern that ends the block matches at the end, so it matches somewhere
  obtain ⟨m', hm'⟩ := Regex.exists_search?_of_size hinside hm
  have hend : Alternative g line.toList.toArray scan.pos f [] _ :=
    .ending hsource howner hpattern hm'
  obtain ⟨found, hnext, hseen⟩ := nextMatch_of_over htop hover
  have hearliest := earliest_of_nextMatch howner hcandidates hnext
  cases found with
  | none => exact absurd hend (hearliest _ _)
  | some c =>
    obtain ⟨hempty, hmarker, hstart⟩ := hseen c rfl
    obtain ⟨place, halt, hfirst⟩ := hearliest
    have hbounds := Regex.search?_inside hinside hm'
    have hlast : m'.start ≤ line.toList.toArray.size := hbounds.ordered.trans hbounds.stop
    -- what stopped the scan starts no earlier, so it stands at the first place
    obtain rfl : place = [] := by
      rcases hfirst _ _ hend with hlt | ⟨_, hle⟩
      · exact absurd (lt_of_lt_of_le hlt hlast) (not_lt.mpr hstart)
      · exact le_antisymm hle (not_lt.mp (List.not_lt_nil _))
    obtain rfl := halt.unique hend
    refine closedAtEnd_of_emptySeen hplaced hscan ?_
    have hid : g.rules[f.rule].id = f.rule := hplaced _ _ howner
    have hat : m'.start = line.length := by
      rw [← length_toArray]
      exact le_antisymm hlast hstart
    rwa [Choice.marker, hid, hat] at hmarker

end blocks

/-- A block that is not the outermost one has a pattern that ends it. -/
theorem Nested.ending_of_depth {s : LineState} (h : Nested g s) (htop : s.top? = some f)
    (hdepth : 1 < s.depth) : f.endSource.isSome := by
  obtain ⟨frames⟩ := s
  obtain ⟨below, rfl⟩ := List.getLast?_eq_some_iff.mp htop
  have hne : below ≠ [] := by
    rintro rfl
    exact absurd hdepth (lt_irrefl 1)
  obtain ⟨_, _, hopened⟩ := List.isChain_append.mp h.chain
  exact (hopened _ (List.getLast?_eq_some_getLast hne) f rfl).ending

/-- When a line leaves blocks open, the pattern that ends the innermost one has no match at the end
of the line, unless a block of the same rule was closed there; and it has one if that block had the
same pattern. -/
theorem open_block_of_tokenizeLine {source : String} {raw : Json} (hg : ofJson source raw = .ok g)
    (hprevious : Left g previous) (hr : g.tokenizeLine line previous = .ok r)
    (hdepth : 1 < r.state.depth) :
    ∃ f ending pattern, r.state.top? = some f ∧ f.endSource = some ending ∧
      g.endPattern ending = .ok pattern ∧
      (∀ m, pattern.search? line.toList.toArray line.length = some m →
        ∃ f', ClosedAtEnd g line previous f' ∧ f'.rule = f.rule) ∧
      ∀ f', ClosedAtEnd g line previous f' → f'.endSource = f.endSource →
        ∃ m, pattern.search? line.toList.toArray line.length = some m := by
  obtain ⟨hplaced, hsize⟩ := placed_of_ofJson hg
  have howns := owns_of_tokenizeLine hplaced hsize hr
  obtain ⟨last, hlast, hover, rfl⟩ := last_of_tokenizeLine hr
  have hnested := nested_of_visited hplaced (hprevious.nested_start hplaced) hlast
  obtain ⟨f, htop, _⟩ := hnested.exists_top
  obtain ⟨ending, hending⟩ := Option.isSome_iff_exists.mp (hnested.ending_of_depth htop hdepth)
  have hrule : f.rule < g.rules.size := (owns_iff.mp howns).2 f (List.mem_of_getLast? htop)
  obtain ⟨pattern, hpattern⟩ := endPattern_of_over hrule htop hover hending
  refine ⟨f, ending, pattern, htop, hending, hpattern, ?_, ?_⟩
  · intro m hm
    exact closedAtEnd_of_over hplaced hrule (getD_candidates hg hrule) hlast htop hover hending
      hpattern hm
  · intro f' hclosed hsame
    obtain ⟨_, _, m, hending', hpattern', hm⟩ := hclosed.found
    cases hending.symm.trans (hsame.symm.trans hending')
    cases hpattern.symm.trans hpattern'
    exact ⟨m, hm⟩

/-- Blocks up to the end of the line, one inside the other, inside brackets. -/
def notes : Json :=
  let block (opening closing : String) (inner : List Json) : Json :=
    .obj [("begin", .str opening), ("end", .str closing), ("patterns", .arr inner)]
  .obj [("scopeName", .str "s"),
    ("patterns", .arr [block "[(]" "[)]" [block "a" "$" [block "b" "$" []]]])]

/-- Blocks of two rules are both closed at the end of the line, and the brackets stay open. -/
theorem notes_closed :
    ∃ (g : Grammar) (r : LineTokens) (f : Frame) (pattern : Regex), ofJson anonymous notes = .ok g ∧
      Left g .nothing ∧ g.tokenizeLine "(ab" = .ok r ∧ r.state.depth = 2 ∧
      r.state.top? = some f ∧ f.endSource = some "[)]" ∧ g.endPattern "[)]" = .ok pattern ∧
      pattern.search? "(ab".toList.toArray "(ab".length = none ∧
      ∀ f', ClosedAtEnd g "(ab" .nothing f' → f'.endSource ≠ some "[)]" := by
  have hrun : (do
      let g ← ofJson anonymous notes
      let r ← g.tokenizeLine "(ab"
      let pattern ← g.endPattern "[)]"
      return (r.state.depth, r.state.top?.bind Frame.endSource,
        pattern.search? "(ab".toList.toArray "(ab".length)).toOption
      = some (2, some "[)]", none) := by
    decide +kernel
  obtain ⟨g, hg, hrun⟩ := toOption_bind_eq_some.mp hrun
  obtain ⟨r, hr, hrun⟩ := toOption_bind_eq_some.mp hrun
  obtain ⟨pattern, hpattern, hrun⟩ := toOption_bind_eq_some.mp hrun
  simp only [pure, Except.pure, Except.toOption, Option.some.injEq, Prod.mk.injEq] at hrun
  obtain ⟨hdepth, hending, hnone⟩ := hrun
  obtain ⟨f, htop, hending⟩ := Option.bind_eq_some_iff.mp hending
  -- the block that is left open has an end that is not found at the end of the line
  obtain ⟨f', _, _, htop', hending', hpattern', _, hclosed⟩ :=
    open_block_of_tokenizeLine hg .nothing hr (by omega)
  cases htop.symm.trans htop'
  cases hending.symm.trans hending'
  cases hpattern.symm.trans hpattern'
  refine ⟨g, r, f, pattern, hg, .nothing, hr, hdepth, htop, hending, hpattern, hnone, ?_⟩
  intro f' hf' hsame
  obtain ⟨m, hm⟩ := hclosed f' hf' (hsame.trans hending.symm)
  rw [hnone] at hm
  cases hm

/-- Blocks up to the end of the line, each inside another one of the same rule. -/
def remarks : Json :=
  .obj [("scopeName", .str "s"), ("patterns", .arr [.obj [("include", .str "#a")]]),
    ("repository", .obj [("a", .obj [("begin", .str "a"), ("end", .str "$"), ("name", .str "x"),
      ("patterns", .arr [.obj [("include", .str "#a")]])])])]

/-- Of two such blocks one stays open, though its end matches at the end of the line. -/
theorem remark_left_open :
    ∃ (g : Grammar) (r : LineTokens) (f : Frame) (pattern : Regex) (m : Regex.Found),
      ofJson anonymous remarks = .ok g ∧ Left g .nothing ∧ g.tokenizeLine "aa" = .ok r ∧
      1 < r.state.depth ∧ r.state.top? = some f ∧ f.endSource = some "$" ∧
      g.endPattern "$" = .ok pattern ∧
      pattern.search? "aa".toList.toArray "aa".length = some m := by
  have hrun : (do
      let g ← ofJson anonymous remarks
      let r ← g.tokenizeLine "aa"
      let pattern ← g.endPattern "$"
      return (r.state.depth, r.state.top?.bind Frame.endSource,
        (pattern.search? "aa".toList.toArray "aa".length).isSome)).toOption
      = some (2, some "$", true) := by
    decide +kernel
  obtain ⟨g, hg, hrun⟩ := toOption_bind_eq_some.mp hrun
  obtain ⟨r, hr, hrun⟩ := toOption_bind_eq_some.mp hrun
  obtain ⟨pattern, hpattern, hrun⟩ := toOption_bind_eq_some.mp hrun
  simp only [pure, Except.pure, Except.toOption, Option.some.injEq, Prod.mk.injEq] at hrun
  obtain ⟨hdepth, hending, hfound⟩ := hrun
  obtain ⟨f, htop, hending⟩ := Option.bind_eq_some_iff.mp hending
  obtain ⟨m, hm⟩ := Option.isSome_iff_exists.mp hfound
  have hdeep : 1 < r.state.depth := by omega
  exact ⟨g, r, f, pattern, m, hg, .nothing, hr, hdeep, htop, hending, hpattern, hm⟩

end Grammar

end Conceal
