import Conceal.Proofs.Grammar.Faults

/-!
States of other grammars. Whether a state is its own a grammar tells by the outermost frame and by
the places of the rules alone. So it never refuses a state of its own, and it refuses all states of
a grammar with another scope name; but of a grammar with the same one it takes every state whose
rules have places in its table, whatever rules it has there. Main statement: `refuses_left_iff`.
-/

namespace Conceal

namespace Grammar

variable {g h : Grammar} {s : LineState} {line : String} {previous : Previous}

/-! ## States that a grammar left -/

/-- A state that a grammar has left is its own. -/
theorem Left.owns (hs : Left g (.state s)) (hplaced : Placed g.rules) (hsize : 0 < g.rules.size) :
    g.owns s = true := by
  cases hs with
  | line _ hr => exact owns_of_tokenizeLine hplaced hsize hr

/-- A state that a grammar has left has nested frames. -/
theorem Left.nested (hs : Left g (.state s)) (hplaced : Placed g.rules) : Nested g s := by
  cases hs with
  | line hprevious hr =>
    obtain ⟨last, hlast, _, rfl⟩ := last_of_tokenizeLine hr
    exact nested_of_visited hplaced (hprevious.nested_start hplaced) hlast

theorem initialFrame_eq_iff : h.initialFrame = g.initialFrame ↔ h.scopeName = g.scopeName := by
  simp [initialFrame]

/-- A state of one grammar passes for one of another, if they have one scope name and the rules of
the state have places in the other one's table. -/
theorem owns_iff_of_owns (hs : g.owns s = true) : h.owns s = true ↔
    h.scopeName = g.scopeName ∧ ∀ f ∈ s.frames, f.rule < h.rules.size := by
  rw [owns_iff, (owns_iff.mp hs).1, Option.some.injEq, eq_comm, initialFrame_eq_iff]

/-! ## Complaints -/

theorem startState_of_owns (hs : h.owns s = true) : startState h (.state s) = .ok s := if_pos hs

/-- A state is refused on every line, or on none. -/
theorem foreignState_iff : h.tokenizeLine line (.state s) =
    .error (.grammar h.source (.foreignState s.shown)) ↔ h.owns s = false := by
  cases hs : h.owns s with
  | true =>
    have hhomely := homely_tokenizeLine (g := h) line (Or.inr ⟨s, rfl, hs⟩)
    exact iff_of_false (fun herror => hhomely _ herror ⟨_, _, rfl⟩) (by simp)
  | false =>
    have hstart : startState h (.state s) = .error (.grammar h.source (.foreignState s.shown)) :=
      if_neg (by simp [hs])
    exact iff_of_true (tokenizeLine_eq_error_iff.mpr (Or.inl hstart)) rfl

/-- A scan of a line comes to a block whose end is malformed. -/
def Stuck (g : Grammar) (line : String) (previous : Previous) : Prop :=
  ∃ scan f ending, Visited g line previous scan ∧ scan.state.top? = some f ∧
    f.endSource = some ending ∧ Regex.compile ending = .error .malformed

/-- A grammar complains of an end only if that is malformed. -/
theorem endPattern_eq_grammar_iff {ending source : String} {cause : GrammarFault} :
    g.endPattern ending = .error (.grammar source cause) ↔
      Regex.compile ending = .error .malformed ∧ source = g.source ∧
        cause = .badEndPattern ending := by
  unfold endPattern
  cases hcompile : Regex.compile ending with
  | ok pattern => simp [Except.mapError]
  | error e => cases e <;> simp [Except.mapError, Fault.ofPattern, eq_comm]

/-- Of a state that it takes a grammar complains only where it is stuck. -/
theorem complains_iff_stuck (hplaced : Placed h.rules) (hsize : 0 < h.rules.size)
    (hs : h.owns s = true) :
    (∃ source cause, h.tokenizeLine line (.state s) = .error (.grammar source cause)) ↔
      Stuck h line (.state s) := by
  -- every frame on the way is of this grammar, so that its rules are found
  have hrule : ∀ scan, Visited h line (.state s) scan → ∀ f, scan.state.top? = some f →
      f.rule < h.rules.size := fun scan hscan f htop =>
    (owns_iff.mp (owns_of_visited hplaced hsize hscan)).2 f (List.mem_of_getLast? htop)
  constructor
  · rintro ⟨source, cause, herror⟩
    rcases tokenizeLine_eq_error_iff.mp herror with hstart | ⟨scan, hscan, hstep⟩
    · rw [startState_of_owns hs] at hstart
      cases hstart
    · cases htop : scan.state.top? with
      | none =>
        rw [Scan.step, htop] at hstep
        cases hstep
      | some f =>
        rcases (step_eq_error_iff htop).mp hstep with hnext | ⟨c, _, htake⟩
        · obtain ⟨ending, hending, hpattern⟩ := (nextMatch_eq_error_iff
            (Array.getElem?_eq_getElem (hrule scan hscan f htop))).mp hnext
          exact ⟨scan, f, ending, hscan, htop, hending, (endPattern_eq_grammar_iff.mp hpattern).1⟩
        · -- what goes wrong with a match that is taken is no complaint
          cases isGrammar_of_take htake
  · rintro ⟨scan, f, ending, hscan, htop, hending, hmalformed⟩
    have hpattern : h.endPattern ending = .error (.grammar h.source (.badEndPattern ending)) :=
      endPattern_eq_grammar_iff.mpr ⟨hmalformed, rfl, rfl⟩
    have hstep : scan.step h line.toList.toArray =
        .error (.grammar h.source (.badEndPattern ending)) :=
      (step_eq_error_iff htop).mpr (Or.inl ((nextMatch_eq_error_iff
        (Array.getElem?_eq_getElem (hrule scan hscan f htop))).mpr ⟨ending, hending, hpattern⟩))
    exact ⟨_, _, tokenizeLine_eq_error_iff.mpr (Or.inr ⟨scan, hscan, hstep⟩)⟩

/-! ## Strangers -/

/-- Does a state of one grammar look strange to another one? It does if the scope names differ, or
if a block of the state is of a rule beyond the other one's table. -/
def Strange (g h : Grammar) (s : LineState) : Prop :=
  h.scopeName ≠ g.scopeName ∨ ∃ f ∈ s.frames, h.rules.size ≤ f.rule

/-- A state of one grammar looks strange to another exactly if that does not own it. -/
theorem strange_iff (hs : g.owns s = true) : Strange g h s ↔ h.owns s = false := by
  rw [← Bool.not_eq_true, owns_iff_of_owns hs, Strange, not_and_or]
  simp

/-- Whatever lines one grammar has tokenized, another one refuses the state that was left exactly if
it looks strange, and then on every line and as a state that is not its own. Any other complaint
that it has is about the end of a block. A state that it could have left itself does not look
strange; but no state does if the scope name is the same and the table has as many rules. -/
theorem refuses_left_iff {source source' : String} {raw raw' : Json}
    (hg : ofJson source raw = .ok g) (hh : ofJson source' raw' = .ok h) (hs : Left g (.state s))
    (line : String) :
    (h.tokenizeLine line (.state s) = .error (.grammar h.source (.foreignState s.shown)) ↔
      Strange g h s) ∧
    ((∃ source cause, h.tokenizeLine line (.state s) = .error (.grammar source cause)) ↔
      Strange g h s ∨ Stuck h line (.state s)) ∧
    (Left h (.state s) → ¬ Strange g h s) ∧
    (h.scopeName = g.scopeName → g.rules.size ≤ h.rules.size → ¬ Strange g h s) := by
  obtain ⟨hplaced, hsize⟩ := placed_of_ofJson hg
  obtain ⟨hplaced', hsize'⟩ := placed_of_ofJson hh
  have hown := hs.owns hplaced hsize
  refine ⟨foreignState_iff.trans (strange_iff hown).symm, ?_, ?_, ?_⟩
  · rw [strange_iff hown]
    cases howns : h.owns s with
    | true => simpa using complains_iff_stuck hplaced' hsize' howns
    | false => exact iff_of_true ⟨_, _, foreignState_iff.mpr howns⟩ (Or.inl rfl)
  · intro hs'
    rw [strange_iff hown, hs'.owns hplaced' hsize']
    simp
  · intro hname hle
    rw [strange_iff hown, Bool.not_eq_false, owns_iff_of_owns hown]
    exact ⟨hname, fun f hf => lt_of_lt_of_le ((owns_iff.mp hown).2 f hf) hle⟩

/-- A grammar with one block, which may have others inside. -/
def blockGrammar (block : Json) : Json :=
  .obj [("scopeName", .str "s"), ("patterns", .arr [block])]

/-- A block with a name. -/
def block (opening closing name : String) (inner : List Json) : Json :=
  .obj [("begin", .str opening), ("end", .str closing), ("name", .str name),
    ("patterns", .arr inner)]

/-- A block inside of another one has no place where there is one rule less. -/
theorem inner_block_refused :
    ∃ (g h : Grammar) (s : LineState),
      ofJson anonymous (blockGrammar (block "a" "b" "x" [block "c" "d" "y" []])) = .ok g ∧
      ofJson anonymous (blockGrammar (block "a" "b" "x" [])) = .ok h ∧ Left g (.state s) ∧
      ¬ Left h (.state s) ∧
      h.tokenizeLine "b" (.state s) = .error (.grammar h.source (.foreignState s.shown)) := by
  have hrun : (do
      let g ← ofJson anonymous (blockGrammar (block "a" "b" "x" [block "c" "d" "y" []]))
      let h ← ofJson anonymous (blockGrammar (block "a" "b" "x" []))
      let r ← g.tokenizeLine "ac"
      return (r.state.frames.map Frame.rule, h.rules.size)).toOption = some ([0, 1, 2], 2) := by
    decide +kernel
  obtain ⟨g, hg, hrun⟩ := toOption_bind_eq_some.mp hrun
  obtain ⟨h, hh, hrun⟩ := toOption_bind_eq_some.mp hrun
  obtain ⟨r, hr, hrun⟩ := toOption_bind_eq_some.mp hrun
  simp only [pure, Except.pure, Except.toOption, Option.some.injEq, Prod.mk.injEq] at hrun
  obtain ⟨hframes, hsize⟩ := hrun
  have hs : Left g (.state r.state) := .line .nothing hr
  obtain ⟨f, hf, hrule⟩ : ∃ f ∈ r.state.frames, f.rule = 2 := by
    rw [← List.mem_map, hframes]
    simp
  have hstrange : Strange g h r.state := Or.inr ⟨f, hf, by omega⟩
  obtain ⟨hrefused, _, hown, _⟩ := refuses_left_iff hg hh hs "b"
  exact ⟨g, h, r.state, hg, hh, hs, fun h' => hown h' hstrange, hrefused.mpr hstrange⟩

/-- An open block passes for one of another grammar, which has another rule at the same place; it
could not have left a block of that name. -/
theorem stranger_taken :
    ∃ (g h : Grammar) (s : LineState) (r : LineTokens),
      ofJson anonymous (blockGrammar (block "a" "b" "x" [])) = .ok g ∧
      ofJson anonymous (blockGrammar (block "c" "d" "y" [])) = .ok h ∧ g.rules ≠ h.rules ∧
      Left g (.state s) ∧ ¬ Left h (.state s) ∧ h.tokenizeLine "z" (.state s) = .ok r := by
  have hrun : (do
      let g ← ofJson anonymous (blockGrammar (block "a" "b" "x" []))
      let h ← ofJson anonymous (blockGrammar (block "c" "d" "y" []))
      let r ← g.tokenizeLine "a"
      let r' ← h.tokenizeLine "z" (.state r.state)
      return (g.rules.map Rule.name, h.rules.map Rule.name, r.state)).toOption
      = some (#[none, some "x"], #[none, some "y"],
        ⟨[⟨0, ["s"], ["s"], none⟩, ⟨1, ["s", "x"], ["s", "x"], some "b"⟩]⟩) := by
    decide +kernel
  obtain ⟨g, hg, hrun⟩ := toOption_bind_eq_some.mp hrun
  obtain ⟨h, hh, hrun⟩ := toOption_bind_eq_some.mp hrun
  obtain ⟨r, hr, hrun⟩ := toOption_bind_eq_some.mp hrun
  obtain ⟨r', hr', hrun⟩ := toOption_bind_eq_some.mp hrun
  simp only [pure, Except.pure, Except.toOption, Option.some.injEq, Prod.mk.injEq] at hrun
  obtain ⟨hnames, hnames', hstate⟩ := hrun
  refine ⟨g, h, r.state, r', hg, hh, ?_, .line .nothing hr, fun hleft => ?_, hr'⟩
  · intro hsame
    rw [hsame, hnames'] at hnames
    simp at hnames
  · -- its own blocks have the name of its rule
    have hchain := (hleft.nested (placed_of_ofJson hh).1).chain
    rw [hstate] at hchain
    obtain ⟨rule, hrule, _, hscopes, _⟩ := (List.isChain_cons_cons.mp hchain).1.rule
    have hname := congrArg (·[1]?) hnames'
    simp [Array.getElem?_map, hrule] at hname
    rw [hname] at hscopes
    simp at hscopes

end Grammar

end Conceal
