import Conceal.LineScopes
import Conceal.Proofs.Document.Lines
import Conceal.Proofs.Grammar.Strangers

/-!
Questions about single lines. A rebuild runs the tokenizer over all lines in order, each from the
state after the one before; a question about one line starts from the state that the rebuild kept.
Both give the same tokens, and the states that are kept are always those of the tokenizer that is
there. Main statement: `queries_follow_runs`.
-/

namespace Conceal

/-- A run of a tokenizer over lines in order, from a state to the last one, with what each line
gives. -/
inductive Tokenizer.Runs (t : Tokenizer) :
    Option LineState → List String → List LineTokens → Option LineState → Prop
  | nil {previous : Option LineState} : Runs t previous [] [] previous
  | cons {previous last : Option LineState} {line : String} {lines : List String} {r : LineTokens}
      {results : List LineTokens} (hline : t.tokenize line previous = .ok r)
      (hrest : Runs t (some r.state) lines results last) :
      Runs t previous (line :: lines) (r :: results) last

/-- The state before a line, given the one before all lines and what the lines give. -/
def stateBefore (first : Option LineState) (results : List LineTokens) : Nat → Option LineState
  | 0 => first
  | n + 1 => results[n]?.map LineTokens.state

namespace Tokenizer.Runs

variable {t : Tokenizer} {previous last : Option LineState} {lines : List String}
  {results : List LineTokens}

theorem length_eq (h : t.Runs previous lines results last) : results.length = lines.length := by
  induction h with
  | nil => rfl
  | cons _ _ ih => rw [List.length_cons, List.length_cons, ih]

/-- What a line gives in a run, it gives from the state after the line before it. -/
theorem tokenize_eq (h : t.Runs previous lines results last) {n : Nat} {r : LineTokens}
    (hr : results[n]? = some r) : ∃ line, lines[n]? = some line ∧
      t.tokenize line (stateBefore previous results n) = .ok r := by
  induction h generalizing n with
  | nil => simp at hr
  | @cons previous last line lines r₀ results hline hrest ih =>
    cases n with
    | zero =>
      obtain rfl : r₀ = r := by simpa using hr
      exact ⟨line, rfl, hline⟩
    | succ n =>
      obtain ⟨line', hline', htokenize⟩ := ih (by simpa using hr)
      refine ⟨line', by simpa using hline', ?_⟩
      cases n <;> exact htokenize

end Tokenizer.Runs

namespace LineScopes

/-! ## Rebuilding -/

/-- The states that are found are those of a run over all lines, or over those before the first
that fails. -/
theorem endStates_eq (t : Tokenizer) (lines : List String) (previous : Option LineState) :
    ∃ before results last, t.Runs previous before results last ∧
      (endStates t lines previous).1 = results.map LineTokens.state ∧
      ((lines = before ∧ (endStates t lines previous).2 = none) ∨
        ∃ line after fault, lines = before ++ line :: after ∧
          t.tokenize line last = .error fault ∧ (endStates t lines previous).2 = some fault) := by
  induction lines generalizing previous with
  | nil => exact ⟨[], [], previous, .nil, rfl, Or.inl ⟨rfl, rfl⟩⟩
  | cons line rest ih =>
    unfold endStates
    cases hline : t.tokenize line previous with
    | error fault =>
      exact ⟨[], [], previous, .nil, rfl, Or.inr ⟨line, rest, fault, rfl, hline, rfl⟩⟩
    | ok r =>
      obtain ⟨before, results, last, hruns, hstates, hend⟩ := ih (some r.state)
      refine ⟨line :: before, r :: results, last, .cons hline hruns, ?_, ?_⟩
      · rw [List.map_cons, ← hstates]
      · rcases hend with ⟨rfl, hnone⟩ | ⟨line', after, fault, rfl, hfault, hsome⟩
        · exact Or.inl ⟨rfl, hnone⟩
        · exact Or.inr ⟨line', after, fault, rfl, hfault, hsome⟩

theorem endState?_natCast (l : LineScopes) (n : Nat) : l.endState? n = l.states[n]? := by
  simp [endState?]

theorem endState?_of_neg (l : LineScopes) {n : Int} (h : n < 0) : l.endState? n = none := by
  rw [endState?, if_neg (by omega)]

/-- A question about a line of a run gives what the run gave. -/
theorem tokens?_of_runs {d : Document} {t : Tokenizer} {results : List LineTokens}
    {last : Option LineState} (h : t.Runs none d.lines results last) {n : Nat} {r : LineTokens}
    (hr : results[n]? = some r) :
    tokens? ⟨some d, some t, results.map LineTokens.state⟩ n = .ok (some r.tokens, none) := by
  obtain ⟨line, hline, htokenize⟩ := h.tokenize_eq hr
  have htext : d.line? n = some line := by rw [← Document.getElem?_lines, hline]
  -- the state before the line is that of the run
  have hbefore : endState? ⟨some d, some t, results.map LineTokens.state⟩ ((n : Int) - 1) =
      stateBefore none results n := by
    cases n with
    | zero => exact endState?_of_neg _ (by omega)
    | succ n =>
      have hn : ((n + 1 : Nat) : Int) - 1 = (n : Int) := by omega
      rw [hn, endState?_natCast, List.getElem?_map, stateBefore]
  simp only [tokens?, htext, hbefore, pure_bind, htokenize]
  rfl

/-- What a rebuild gives, for a document and a tokenizer. -/
inductive Rebuilds (d : Document) (t : Tokenizer) : Rebuilt → Prop
  /-- All lines are tokenized. -/
  | all {results : List LineTokens} {last : Option LineState}
      (hruns : t.Runs none d.lines results last) :
      Rebuilds d t { scopes := ⟨some d, some t, results.map LineTokens.state⟩ }
  /-- The tokenizer fails with a line, and is dropped. -/
  | dropped {before : List String} {results : List LineTokens} {last : Option LineState}
      {line : String} {after : List String} {fault : Fault}
      (hlines : d.lines = before ++ line :: after) (hruns : t.Runs none before results last)
      (hfault : t.tokenize line last = .error fault) (hgrammar : fault.isGrammar = true) :
      Rebuilds d t { scopes := ⟨some d, none, []⟩, notice := some .grammarDropped }
  /-- A line fails for another reason, and the rebuild with it. -/
  | failed {before : List String} {results : List LineTokens} {last : Option LineState}
      {line : String} {after : List String} {fault : Fault}
      (hlines : d.lines = before ++ line :: after) (hruns : t.Runs none before results last)
      (hfault : t.tokenize line last = .error fault) (hgrammar : fault.isGrammar = false) :
      Rebuilds d t
        { scopes := ⟨some d, some t, results.map LineTokens.state⟩, fault := some fault }

/-- A rebuild starts from nothing that an earlier one has left. -/
theorem rebuild_eq (d : Document) (t : Tokenizer) (states : List LineState) :
    Rebuilds d t (rebuild ⟨some d, some t, states⟩) := by
  obtain ⟨before, results, last, hruns, hstates, hend⟩ := endStates_eq t d.lines none
  simp only [rebuild]
  generalize endStates t d.lines none = found at hstates hend ⊢
  obtain ⟨found, end?⟩ := found
  simp only at hstates hend
  subst hstates
  rcases hend with ⟨rfl, rfl⟩ | ⟨line, after, fault, hlines, hfault, rfl⟩
  · exact .all hruns
  · simp only
    split
    next hgrammar => exact .dropped hlines hruns hfault hgrammar
    next hgrammar => exact .failed hlines hruns hfault (by simpa using hgrammar)

/-! ## Requests in any order -/

/-- Tokenizers by their serial numbers. -/
structure Pool where
  get : Nat → Tokenizer
  serial_get : ∀ n, (get n).serial = n

/-- What can be asked of the scopes of a document. -/
inductive Request where
  | setDocument (document : Option Document)
  /-- Takes the tokenizer of a serial number, or none. -/
  | setTokenizer (serial : Option Nat)
  | clearTokenizer
  | rebuild
  /-- Asks for the tokens of a line. -/
  | query (line : Int)
deriving DecidableEq

/-- Is a request a mere question? -/
def Request.isQuery : Request → Bool
  | .query _ => true
  | _ => false

/-- The scopes after a request, and the tokens that were asked for, or what went wrong. -/
def perform (pool : Pool) (l : LineScopes) :
    Request → LineScopes × Except Fault (Option (List Token))
  | .setDocument document => (l.setDocument document, .ok none)
  | .setTokenizer serial => (l.setTokenizer (serial.map pool.get), .ok none)
  | .clearTokenizer => (l.clearTokenizer, .ok none)
  | .rebuild =>
    let b := l.rebuild
    (b.scopes, match b.fault with
      | some fault => .error fault
      | none => .ok none)
  | .query line => (l, (l.tokens? line).map Prod.fst)

/-- The scopes after requests. -/
def performAll (pool : Pool) (l : LineScopes) (requests : List Request) : LineScopes :=
  requests.foldl (fun l r => (l.perform pool r).1) l

/-- Questions leave no trace. -/
theorem performAll_filter (pool : Pool) (l : LineScopes) (requests : List Request) :
    l.performAll pool (requests.filter fun r => !r.isQuery) = l.performAll pool requests := by
  induction requests generalizing l with
  | nil => rfl
  | cons r rest ih =>
    cases r with
    | query line => exact ih l
    | setDocument document => exact ih _
    | setTokenizer serial => exact ih _
    | clearTokenizer => exact ih _
    | rebuild => exact ih _

/-- All states are those that the tokenizer has left behind; without one there are none. -/
structure Kept (pool : Pool) (l : LineScopes) : Prop where
  pooled : ∀ t, l.tokenizer = some t → t = pool.get t.serial
  cleared : l.tokenizer = none → l.states = []
  left : ∀ s ∈ l.states, ∃ t line previous r, l.tokenizer = some t ∧
    t.tokenize line previous = .ok r ∧ r.state = s

namespace Kept

variable {pool : Pool} {l : LineScopes}

theorem of_nil (hpooled : ∀ t, l.tokenizer = some t → t = pool.get t.serial)
    (hnil : l.states = []) : l.Kept pool where
  pooled := hpooled
  cleared _ := hnil
  left := by simp [hnil]

/-- The states of a run are those that the owner would compute anew. -/
theorem of_runs {document : Option Document} {t : Tokenizer} {previous last : Option LineState}
    {lines : List String} {results : List LineTokens} (hpooled : t = pool.get t.serial)
    (h : t.Runs previous lines results last) :
    Kept pool ⟨document, some t, results.map LineTokens.state⟩ where
  pooled := by
    rintro _ ⟨⟩
    exact hpooled
  cleared hnone := by cases hnone
  left s hs := by
    obtain ⟨r, hr, rfl⟩ := List.mem_map.mp hs
    obtain ⟨n, hn⟩ := List.mem_iff_getElem?.mp hr
    obtain ⟨line, _, htokenize⟩ := h.tokenize_eq hn
    exact ⟨t, line, _, r, rfl, htokenize, rfl⟩

/-- Another grammar drops the states of the one before. -/
theorem setTokenizer (h : l.Kept pool) (serial : Option Nat) :
    (l.setTokenizer (serial.map pool.get)).Kept pool := by
  have hpooled : ∀ t, serial.map pool.get = some t → t = pool.get t.serial := by
    rintro t ht
    obtain ⟨n, -, rfl⟩ := Option.map_eq_some_iff.mp ht
    rw [pool.serial_get]
  unfold LineScopes.setTokenizer
  split
  next hsame =>
    -- tokenizers of one serial number are the same
    have heq : serial.map pool.get = l.tokenizer := by
      cases hl : l.tokenizer with
      | none =>
        rw [hl] at hsame
        cases serial with
        | none => rfl
        | some n => cases hsame
      | some t =>
        rw [hl] at hsame
        cases serial with
        | none => cases hsame
        | some n =>
          have hn : n = t.serial := by simpa [pool.serial_get] using hsame
          rw [Option.map_some, hn, ← h.pooled t hl]
    rw [heq]
    exact h
  · exact of_nil hpooled rfl

/-- A rebuild leaves the states of a run, up to the line that fails. -/
theorem rebuild (h : l.Kept pool) : l.rebuild.scopes.Kept pool := by
  obtain ⟨document, tokenizer, states⟩ := l
  have hpooled := h.pooled
  cases tokenizer with
  | none => cases document <;> exact of_nil hpooled rfl
  | some t =>
    cases document with
    | none => exact of_nil hpooled rfl
    | some d =>
      have hrebuilt := rebuild_eq d t states
      generalize LineScopes.rebuild ⟨some d, some t, states⟩ = b at hrebuilt ⊢
      cases hrebuilt with
      | all hruns => exact of_runs (hpooled t rfl) hruns
      | dropped => exact of_nil (fun _ hnone => by cases hnone) rfl
      | failed _ hruns => exact of_runs (hpooled t rfl) hruns

/-- Every request keeps the states those of the tokenizer. -/
theorem perform (h : l.Kept pool) (r : Request) : (l.perform pool r).1.Kept pool := by
  cases r with
  | setDocument document => exact ⟨h.pooled, h.cleared, h.left⟩
  | setTokenizer serial => exact h.setTokenizer serial
  | clearTokenizer => exact of_nil (fun _ hnone => by cases hnone) rfl
  | rebuild => exact h.rebuild
  | query line => exact h

/-- Requests in any order keep what the states are the states of. -/
theorem performAll (h : l.Kept pool) (requests : List Request) :
    (l.performAll pool requests).Kept pool := by
  induction requests generalizing l with
  | nil => exact h
  | cons r rest ih => exact ih (h.perform r)

/-- The serial number tells which tokenizer it is. -/
theorem tokenizer_eq (h : l.Kept pool) {serial : Nat}
    (hserial : l.tokenizer.map Tokenizer.serial = some serial) :
    l.tokenizer = some (pool.get serial) := by
  obtain ⟨t, ht, rfl⟩ := Option.map_eq_some_iff.mp hserial
  rw [ht, ← h.pooled t ht]

theorem ofDocument (pool : Pool) (document : Option Document) (serial : Option Nat) :
    (ofDocument document (serial.map pool.get)).scopes.Kept pool := by
  refine rebuild (of_nil (fun t ht => ?_) rfl)
  obtain ⟨n, -, rfl⟩ := Option.map_eq_some_iff.mp ht
  rw [pool.serial_get]

/-- A grammar is never given a state that it does not know. -/
theorem homely (h : l.Kept pool) {source : String} {raw : Json} {g : Grammar}
    (hg : Grammar.ofJson source raw = .ok g) {serial : Nat}
    (ht : l.tokenizer = some (g.toTokenizer serial)) (n : Int) (line : String) :
    Grammar.Homely ((g.toTokenizer serial).tokenize line (l.endState? n)) := by
  obtain ⟨hplaced, hne⟩ := Grammar.placed_of_ofJson hg
  cases hstate : l.endState? n with
  | none => exact Grammar.homely_tokenizeLine line (Or.inl rfl)
  | some s =>
    have hmem : s ∈ l.states := by
      unfold endState? at hstate
      split at hstate
      · exact List.mem_of_getElem? hstate
      · cases hstate
    obtain ⟨t, line', previous, r, ht', htokenize, rfl⟩ := h.left s hmem
    obtain rfl := Option.some.inj (ht'.symm.trans ht)
    have howns : g.owns r.state = true := Grammar.owns_of_tokenizeLine hplaced hne htokenize
    exact Grammar.homely_tokenizeLine line (Or.inr ⟨r.state, rfl, howns⟩)

end Kept

/-- Questions about lines follow the run of the tokenizer over all lines.

After a rebuild for a document and a tokenizer, either the run over all lines has succeeded: then
the state kept for each line is that of the run, no other line has one, and a question about a line
is answered with the tokens of the run. Or the tokenizer has failed with a line: then it is gone,
with all states. Or a line has failed for a reason that is not the tokenizer's, and the rebuild has
failed with it.

After any requests, the questions among them could as well have been left out; without a tokenizer
there are no states; every state was left by the tokenizer that is there; and if that is a grammar
that was read, it is never asked to go on from a state that it does not know. -/
theorem queries_follow_runs :
    (∀ (d : Document) (t : Tokenizer) (states : List LineState),
      let b := rebuild ⟨some d, some t, states⟩
      (∃ results last, t.Runs none d.lines results last ∧ results.length = d.lineCount ∧
        b.fault = none ∧ b.scopes.tokenizer = some t ∧
        (∀ n : Nat, b.scopes.endState? n = results[n]?.map LineTokens.state) ∧
        (∀ n : Int, n < 0 → b.scopes.endState? n = none) ∧
        ∀ (n : Nat) (r : LineTokens), results[n]? = some r →
          b.scopes.tokens? n = .ok (some r.tokens, none)) ∨
      ∃ before results last line after fault, d.lines = before ++ line :: after ∧
        t.Runs none before results last ∧ t.tokenize line last = .error fault ∧
        if fault.isGrammar then
          b.fault = none ∧ b.scopes.tokenizer = none ∧ b.scopes.states = []
        else b.fault = some fault) ∧
    ∀ (pool : Pool) (document : Option Document) (serial : Option Nat) (requests : List Request),
      let first := (ofDocument document (serial.map pool.get)).scopes
      let l := first.performAll pool requests
      first.performAll pool (requests.filter fun r => !r.isQuery) = l ∧
      (l.tokenizer = none → l.states = []) ∧
      (∀ s ∈ l.states, ∃ t line previous r, l.tokenizer = some t ∧
        t.tokenize line previous = .ok r ∧ r.state = s) ∧
      ∀ source raw g serial, Grammar.ofJson source raw = .ok g →
        l.tokenizer = some (g.toTokenizer serial) →
        ∀ (n : Int) (line source shown : String),
          (g.toTokenizer serial).tokenize line (l.endState? n) ≠
            .error (.grammar source (.foreignState shown)) := by
  refine ⟨fun d t states => ?_, fun pool document serial requests => ?_⟩
  · -- a rebuild ends in one of three ways, whatever states were there before
    have hrebuilt := rebuild_eq d t states
    generalize rebuild ⟨some d, some t, states⟩ = b at hrebuilt ⊢
    cases hrebuilt with
    | @all results last hruns =>
      refine Or.inl ⟨results, last, hruns, ?_, rfl, rfl, fun n => ?_,
        fun n hn => endState?_of_neg _ hn, fun n r hr => tokens?_of_runs hruns hr⟩
      · rw [hruns.length_eq, Document.length_lines]
      · rw [endState?_natCast, List.getElem?_map]
    | dropped hlines hruns hfault hgrammar =>
      refine Or.inr ⟨_, _, _, _, _, _, hlines, hruns, hfault, ?_⟩
      rw [if_pos hgrammar]
      exact ⟨rfl, rfl, rfl⟩
    | failed hlines hruns hfault hgrammar =>
      refine Or.inr ⟨_, _, _, _, _, _, hlines, hruns, hfault, ?_⟩
      rw [if_neg (by simp [hgrammar])]
  · -- requests keep that the states belong to the tokenizer of the pool
    have hkept := (Kept.ofDocument pool document serial).performAll requests
    refine ⟨performAll_filter pool _ requests, hkept.cleared, hkept.left, ?_⟩
    intro source raw g serial hg ht n line source' shown herror
    exact hkept.homely hg ht n line _ herror ⟨source', shown, rfl⟩

/-- The tokenizers of two grammars, of one under the number zero and of the other under the rest. -/
def Pool.ofTwo (g h : Grammar) : Pool where
  get serial := (if serial = 0 then g else h).toTokenizer serial
  serial_get _ := rfl

/-- A grammar with a block, which may have others inside. -/
def outline (inner : List Json) : Json :=
  .obj [("scopeName", .str "s"), ("patterns", .arr [.obj [("begin", .str "a"), ("end", .str "b"),
    ("name", .str "x"), ("patterns", .arr inner)]])]

/-- A block for the inside of another one. -/
def innerBlock : Json := .obj [("begin", .str "c"), ("end", .str "d"), ("name", .str "y")]

/-- A document of two lines. -/
def twoLines : Document := { text := "ac\ndb" }

/-- Another grammar is taken, with questions about the second line before and after it. -/
def handOver : List Request := [.query 1, .setTokenizer (some 1), .query 1, .rebuild]

/-- What the two grammars make of the lines: the second line is read from the state of the first
grammar, which the other one would refuse, and in the end there is a state of the other for each. -/
private theorem handOver_run : ∃ (g h : Grammar) (s : LineState) (notice : Option Notice),
    let b := ofDocument (some twoLines) ((some 0).map (Pool.ofTwo g h).get)
    let l := b.scopes.performAll (.ofTwo g h) handOver
    Grammar.ofJson Grammar.anonymous (outline [innerBlock]) = .ok g ∧
    Grammar.ofJson Grammar.anonymous (outline []) = .ok h ∧ b.fault.isNone = true ∧
    b.scopes.tokens? 1 =
      .ok (some [⟨0, 1, ["s", "x", "y"]⟩, ⟨1, 2, ["s", "x"]⟩], notice) ∧
    b.scopes.endState? 0 = some s ∧ h.owns s = false ∧
    l.tokenizer.map Tokenizer.serial = some 1 ∧ l.states.length = 2 := by
  have hrun : (do
      let g ← Grammar.ofJson Grammar.anonymous (outline [innerBlock])
      let h ← Grammar.ofJson Grammar.anonymous (outline [])
      let b := ofDocument (some twoLines) ((some 0).map (Pool.ofTwo g h).get)
      let l := b.scopes.performAll (.ofTwo g h) handOver
      let (tokens, _) ← b.scopes.tokens? 1
      return (b.fault.isNone, tokens, (b.scopes.endState? 0).map h.owns,
        l.tokenizer.map Tokenizer.serial, l.states.length)).toOption =
      some (true, some [⟨0, 1, ["s", "x", "y"]⟩, ⟨1, 2, ["s", "x"]⟩], some false, some 1, 2) := by
    decide +kernel
  obtain ⟨g, hg, hrun⟩ := toOption_bind_eq_some.mp hrun
  obtain ⟨h, hh, hrun⟩ := toOption_bind_eq_some.mp hrun
  obtain ⟨⟨tokens, notice⟩, htokens, hrun⟩ := toOption_bind_eq_some.mp hrun
  simp only [pure, Except.pure, Except.toOption, Option.some.injEq, Prod.mk.injEq] at hrun
  obtain ⟨hfault, rfl, howns, hserial, hlength⟩ := hrun
  obtain ⟨s, hs, howns⟩ := Option.map_eq_some_iff.mp howns
  exact ⟨g, h, s, notice, hg, hh, hfault, htokens, hs, howns, hserial, hlength⟩

/-- The second line is asked for while an inner block of the first line is open. Another grammar,
which has no inner blocks, refuses the state behind that line; but as soon as it is taken the state
is gone, and then it goes on from states of its own. -/
theorem open_block_asked :
    ∃ (g h : Grammar) (results : List LineTokens) (last : Option LineState) (r : LineTokens),
      let first := (ofDocument (some twoLines) ((some 0).map (Pool.ofTwo g h).get)).scopes
      let l := first.performAll (.ofTwo g h) handOver
      Grammar.ofJson Grammar.anonymous (outline [innerBlock]) = .ok g ∧
      Grammar.ofJson Grammar.anonymous (outline []) = .ok h ∧
      (g.toTokenizer 0).Runs none twoLines.lines results last ∧ results[1]? = some r ∧
      r.tokens = [⟨0, 1, ["s", "x", "y"]⟩, ⟨1, 2, ["s", "x"]⟩] ∧
      first.tokens? 1 = .ok (some r.tokens, none) ∧
      (∃ source shown, (h.toTokenizer 1).tokenize "db" (first.endState? 0) =
        .error (.grammar source (.foreignState shown))) ∧
      first.performAll (.ofTwo g h) [.setTokenizer (some 1), .rebuild] = l ∧ l.states.length = 2 ∧
      ∀ (n : Int) (line source shown : String),
        (h.toTokenizer 1).tokenize line (l.endState? n) ≠
          .error (.grammar source (.foreignState shown)) := by
  obtain ⟨g, h, s, notice, hg, hh, hfault, htokens, hs, howns, hserial, hlength⟩ := handOver_run
  obtain ⟨hruns, hrequests⟩ := queries_follow_runs
  rcases hruns twoLines ((Pool.ofTwo g h).get 0) [] with
    ⟨results, last, hruns, hresults, -, -, -, -, hquery⟩ | ⟨_, _, _, _, _, _, _, _, _, hfailed⟩
  · -- the first grammar reads both lines, and is asked for the second after a rebuild
    obtain ⟨r, hr⟩ : ∃ r, results[1]? = some r := by
      have hcount : 1 < results.length := by rw [hresults]; decide
      exact ⟨_, List.getElem?_eq_getElem hcount⟩
    have hanswer := hquery 1 r hr
    obtain ⟨htokens', rfl⟩ := Prod.mk.inj (Except.ok.inj (htokens.symm.trans hanswer))
    obtain ⟨hfilter, -, -, hhome⟩ := hrequests (.ofTwo g h) (some twoLines) (some 0) handOver
    have hrefused : (h.toTokenizer 1).tokenize "db" (some s) =
        .error (.grammar h.source (.foreignState s.shown)) := Grammar.foreignState_iff.mpr howns
    refine ⟨g, h, results, last, r, hg, hh, hruns, hr, (Option.some.inj htokens').symm, hanswer,
      ⟨_, _, hs ▸ hrefused⟩, hfilter, hlength, hhome Grammar.anonymous (outline []) h 1 hh ?_⟩
    have hkept := (Kept.ofDocument (.ofTwo g h) (some twoLines) (some 0)).performAll handOver
    exact hkept.tokenizer_eq hserial
  · -- the tokenizer has not failed
    split at hfailed
    · obtain ⟨-, -, hstates⟩ := hfailed
      have hnone := congrArg (·[0]?) hstates
      exact absurd (hs.symm.trans hnone) (by simp)
    · have hnone : (rebuild ⟨some twoLines, some ((Pool.ofTwo g h).get 0), []⟩).fault.isNone :=
        hfault
      rw [hfailed] at hnone
      cases hnone

end LineScopes

end Conceal
