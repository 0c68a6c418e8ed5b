import Conceal.Proofs.Grammar.Faults
import Conceal.Proofs.Scopes.Queries

/-!
Complaints of a grammar and other failures, for the scopes of a document. A complaint leaves a line
without tokens, and a rebuild without a tokenizer; any other failure is passed on, and a rebuild that
fails keeps the tokenizer with the states of the lines before. Main statement:
`only_complaints_iff`.
-/

namespace Conceal

/-- What came before a line: the state after the line before it, or nothing. -/
def Grammar.Previous.ofState? : Option LineState → Grammar.Previous
  | some s => .state s
  | none => .nothing

/-- A result that is no failure is there, or is a complaint. -/
theorem exists_ok_or_grammar_iff {α : Type} {x : Except Fault α} :
    ((∃ a, x = .ok a) ∨ ∃ source cause, x = .error (.grammar source cause)) ↔
      ¬ ∃ fault, x = .error fault ∧ fault.isGrammar = false := by
  cases x with
  | ok a => simp
  | error fault => cases fault <;> simp [Fault.isGrammar]

theorem Grammar.tokenize_toTokenizer (g : Grammar) (serial : Nat) (line : String)
    (previous : Option LineState) :
    (g.toTokenizer serial).tokenize line previous = g.tokenizeLine line (.ofState? previous) := by
  cases previous <;> rfl

namespace LineScopes

variable {d : Document} {t : Tokenizer} {lines : List String} {previous : Option LineState}
  {states : List LineState} {fault : Fault}

/-! ## Rebuilding -/

/-- A line fails for a tokenizer: the lines before it are tokenized, and it is not. -/
def FailsWith (t : Tokenizer) (lines : List String) (previous : Option LineState) (fault : Fault) :
    Prop :=
  ∃ before line after results last, lines = before ++ line :: after ∧
    t.Runs previous before results last ∧ t.tokenize line last = .error fault

/-- The states end with the complaint of the first line that has one. -/
theorem endStates_of_runs {before : List String} {results : List LineTokens}
    {last : Option LineState} (h : t.Runs previous before results last) {line : String}
    (after : List String) (hline : t.tokenize line last = .error fault) :
    (endStates t (before ++ line :: after) previous).2 = some fault := by
  induction h with
  | nil =>
    rw [List.nil_append, endStates, hline]
  | cons hfirst _ ih =>
    rw [List.cons_append, endStates, hfirst]
    exact ih hline

/-- The states end with a complaint exactly if some line fails after those before it passed. -/
theorem endStates_eq_some_iff :
    (endStates t lines previous).2 = some fault ↔ FailsWith t lines previous fault := by
  constructor
  · intro h
    obtain ⟨before, results, last, hruns, _, hend⟩ := endStates_eq t lines previous
    rcases hend with ⟨_, hnone⟩ | ⟨line, after, fault', hlines, hline, hsome⟩
    · rw [hnone] at h
      cases h
    · cases hsome.symm.trans h
      exact ⟨before, line, after, results, last, hlines, hruns, hline⟩
  · rintro ⟨before, line, after, results, last, rfl, hruns, hline⟩
    exact endStates_of_runs hruns after hline

/-- A rebuild lets through what is no complaint of the grammar, and nothing else. -/
theorem rebuild_fault_eq_some_iff : (rebuild ⟨some d, some t, states⟩).fault = some fault ↔
    FailsWith t d.lines none fault ∧ fault.isGrammar = false := by
  rw [← endStates_eq_some_iff]
  simp only [rebuild]
  generalize endStates t d.lines none = found
  obtain ⟨found, end?⟩ := found
  cases end? with
  | none => simp
  | some fault' =>
    simp only [Option.some.injEq]
    split
    next hgrammar =>
      constructor
      · intro h
        cases h
      · rintro ⟨rfl, hfalse⟩
        rw [hgrammar] at hfalse
        cases hfalse
    next hgrammar =>
      simp only [Option.some.injEq]
      exact ⟨fun h => ⟨h, by simpa [← h] using hgrammar⟩, And.left⟩

/-- A rebuild that does not fail leaves no tokenizer, or all lines with their states. -/
theorem rebuild_fault_eq_none_iff (d : Document) (t : Tokenizer) (states : List LineState) :
    let b := rebuild ⟨some d, some t, states⟩
    b.fault = none ↔ b.scopes.tokenizer = none ∨ b.scopes.states.length = d.lineCount := by
  intro b
  have hrebuilt : Rebuilds d t b := rebuild_eq d t states
  generalize b = b at hrebuilt ⊢
  cases hrebuilt with
  | all hruns =>
    have hlength := hruns.length_eq
    simp [hlength]
  | dropped => simp
  | failed hlines hruns _ _ =>
    -- the states are those of the lines before the one that fails
    have hlength := congrArg List.length hlines
    rw [List.length_append, List.length_cons, ← hruns.length_eq, Document.length_lines] at hlength
    simp
    omega

/-! ## Grammars -/

/-- A query lets through what is no complaint of the grammar, and nothing else. -/
theorem tokens?_eq_error_iff {n : Int} {line : String} (hline : d.line? n = some line) :
    tokens? ⟨some d, some t, states⟩ n = .error fault ↔
      t.tokenize line (endState? ⟨some d, some t, states⟩ (n - 1)) = .error fault ∧
        fault.isGrammar = false := by
  simp only [tokens?, hline, pure_bind]
  cases t.tokenize line (endState? ⟨some d, some t, states⟩ (n - 1)) with
  | ok r => simp [pure, Except.pure]
  | error e =>
    dsimp only
    split
    next hgrammar =>
      constructor
      · intro h
        cases h
      · rintro ⟨h, hfalse⟩
        cases h
        rw [hgrammar] at hfalse
        cases hfalse
    next hgrammar =>
      constructor
      · intro h
        cases h
        exact ⟨rfl, by simpa using hgrammar⟩
      · rintro ⟨h, _⟩
        cases h
        rfl

/-- Tokenizing a line for a grammar gives tokens or a complaint exactly when no scan of the line
breaks. Then a question about that line is answered as well; and a rebuild goes through when there is
no such line among those that it comes to. A rebuild that goes through leaves no tokenizer or the
states of all lines, and one that does not leaves the tokenizer with the states of some. -/
theorem only_complaints_iff {source : String} {raw : Json} {g : Grammar}
    (hg : Grammar.ofJson source raw = .ok g) :
    (∀ (line : String) (previous : Grammar.Previous),
      ((∃ r, g.tokenizeLine line previous = .ok r) ∨
        ∃ source cause, g.tokenizeLine line previous = .error (.grammar source cause)) ↔
      ¬ g.BreaksIn line previous) ∧
    ∀ (d : Document) (states : List LineState) (serial : Nat),
      let t := g.toTokenizer serial
      let l : LineScopes := ⟨some d, some t, states⟩
      (∀ (n : Int) (line : String), d.line? n = some line →
        ((∃ answer, l.tokens? n = .ok answer) ↔
          ¬ g.BreaksIn line (.ofState? (l.endState? (n - 1))))) ∧
      (l.rebuild.fault = none ↔ ∀ before line after results last,
        d.lines = before ++ line :: after → t.Runs none before results last →
          ¬ g.BreaksIn line (.ofState? last)) ∧
      (l.rebuild.fault = none ↔ l.rebuild.scopes.tokenizer = none ∨
        l.rebuild.scopes.states.length = d.lineCount) := by
  obtain ⟨hplaced, hsize⟩ := Grammar.placed_of_ofJson hg
  have hbreaks : ∀ line previous, (∃ fault, g.tokenizeLine line previous = .error fault ∧
      fault.isGrammar = false) ↔ g.BreaksIn line previous := fun _ _ =>
    Grammar.fails_iff_breaks hplaced hsize
  refine ⟨fun line previous => ?_, fun d states serial => ⟨fun n line hline => ?_, ?_,
    rebuild_fault_eq_none_iff d _ states⟩⟩
  · rw [exists_ok_or_grammar_iff, hbreaks]
  · -- a query tokenizes its line from the state before it
    have hfails : (∃ fault, tokens? ⟨some d, some (g.toTokenizer serial), states⟩ n = .error fault) ↔
        g.BreaksIn line
          (.ofState? (endState? ⟨some d, some (g.toTokenizer serial), states⟩ (n - 1))) := by
      simp only [tokens?_eq_error_iff hline, Grammar.tokenize_toTokenizer, hbreaks]
    rw [← hfails]
    cases tokens? ⟨some d, some (g.toTokenizer serial), states⟩ n <;> simp
  · constructor
    · intro hnone before line after results last hlines hruns hbreak
      obtain ⟨fault, hline, hgrammar⟩ := (hbreaks line _).mpr hbreak
      rw [← Grammar.tokenize_toTokenizer g serial] at hline
      have hsome : (rebuild ⟨some d, some (g.toTokenizer serial), states⟩).fault = some fault :=
        rebuild_fault_eq_some_iff.mpr
          ⟨⟨before, line, after, results, last, hlines, hruns, hline⟩, hgrammar⟩
      rw [hnone] at hsome
      cases hsome
    · -- a fault of the rebuild is one of a line that was reached
      intro hall
      by_contra hfault
      obtain ⟨fault, hsome⟩ := Option.ne_none_iff_exists'.mp hfault
      obtain ⟨⟨before, line, after, results, last, hlines, hruns, hline⟩, hgrammar⟩ :=
        rebuild_fault_eq_some_iff.mp hsome
      rw [Grammar.tokenize_toTokenizer] at hline
      exact hall before line after results last hlines hruns
        ((hbreaks line _).mp ⟨fault, hline, hgrammar⟩)

/-- Blocks that end with a letter from `a` to the one that they began with. -/
def ranges : Json :=
  .obj [("scopeName", .str "s"),
    ("patterns", .arr [.obj [("begin", .str "b(.)"), ("end", .str "[a-\\1]")]])]

/-- From `a` to an exclamation mark there are no letters: the grammar complains about the pattern and
is dropped. -/
theorem bad_range_dropped :
    ∃ g, Grammar.ofJson Grammar.anonymous ranges = .ok g ∧
      (∃ source cause, g.tokenizeLine "b!" = .error (.grammar source cause)) ∧
      ¬ g.BreaksIn "b!" .nothing ∧
      let b := rebuild ⟨some { text := "c\nb!" }, some (g.toTokenizer 0), []⟩
      b.fault = none ∧ b.scopes.tokenizer.isSome = false ∧
        (b.scopes.tokenizer = none ∨ b.scopes.states.length = 2) := by
  have hrun : (do
      let g ← Grammar.ofJson Grammar.anonymous ranges
      let b := rebuild ⟨some { text := "c\nb!" }, some (g.toTokenizer 0), []⟩
      return ((fault? (g.tokenizeLine "b!")).map Fault.isGrammar, b.fault,
        b.scopes.tokenizer.isSome)).toOption = some (some true, none, false) := by
    decide +kernel
  obtain ⟨g, hg, hrun⟩ := toOption_bind_eq_some.mp hrun
  simp only [pure, Except.pure, Except.toOption, Option.some.injEq, Prod.mk.injEq] at hrun
  obtain ⟨hline, hfault, htokenizer⟩ := hrun
  obtain ⟨hlines, hscopes⟩ := only_complaints_iff hg
  obtain ⟨_, _, hkept⟩ := hscopes { text := "c\nb!" } [] 0
  obtain ⟨fault, hline, hgrammar⟩ := Option.map_eq_some_iff.mp hline
  rw [fault?_eq_some_iff] at hline
  have hcomplaint : ∃ source cause, g.tokenizeLine "b!" = .error (.grammar source cause) := by
    cases fault with
    | grammar source cause => exact ⟨source, cause, hline⟩
    | _ => cases hgrammar
  exact ⟨g, hg, hcomplaint, (hlines _ _).mp (Or.inr hcomplaint), hfault, htokenizer,
    hkept.mp hfault⟩

/-- A name for a group with a negative number. -/
def backwards : Json :=
  .obj [("scopeName", .str "s"),
    ("patterns", .arr [.obj [("match", .str "a"),
      ("captures", .obj [("-1", .obj [("name", .str "x")])])]])]

/-- There is no such group, and tokenizing a line fails with no complaint; a rebuild is left with the
tokenizer and the states of some lines. -/
theorem negative_group_escapes :
    ∃ g, Grammar.ofJson Grammar.anonymous backwards = .ok g ∧
      g.tokenizeLine "a" = .error .outOfRange ∧
      let b := rebuild ⟨some { text := "b\na" }, some (g.toTokenizer 0), []⟩
      b.fault = some .outOfRange ∧ b.scopes.tokenizer.isSome = true ∧
        b.scopes.states.length = 1 := by
  have hrun : (do
      let g ← Grammar.ofJson Grammar.anonymous backwards
      let b := rebuild ⟨some { text := "b\na" }, some (g.toTokenizer 0), []⟩
      return (fault? (g.tokenizeLine "a"), b.fault, b.scopes.tokenizer.isSome,
        b.scopes.states.length)).toOption
      = some (some .outOfRange, some .outOfRange, true, 1) := by
    decide +kernel
  obtain ⟨g, hg, hrun⟩ := toOption_bind_eq_some.mp hrun
  simp only [pure, Except.pure, Except.toOption, Option.some.injEq, Prod.mk.injEq] at hrun
  obtain ⟨hline, hfault, htokenizer, hlength⟩ := hrun
  exact ⟨g, hg, fault?_eq_some_iff.mp hline, hfault, htokenizer, hlength⟩

end LineScopes

end Conceal
