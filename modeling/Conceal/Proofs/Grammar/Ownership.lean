import Conceal.Proofs.Grammar.Tiling

/-!
A grammar owns every state that it leaves. Its table has every rule at the place that the rule
names, so a block that is opened belongs to a rule of the table; the root's block stays the
outermost one.
Main statements: `placed_of_ofJson`, `owns_of_tokenizeLine`.
-/

namespace Conceal

namespace Grammar

/-- Every rule is at the place that it names. -/
def Placed (rules : Array Rule) : Prop :=
  ∀ (i : Nat) (r : Rule), rules[i]? = some r → r.id = i

namespace Build

/-- Reading a part of a grammar takes no place back and puts no rule at another place. -/
def Keeps {α : Type} (act : Build α) : Prop :=
  ∀ t a t', act.run t = .ok (a, t') → Placed t.rules →
    Placed t'.rules ∧ t.rules.size ≤ t'.rules.size

section keeps

variable {α β : Type}

theorem keeps_pure (a : α) : Keeps (pure a) := by
  intro t b t' h hplaced
  cases h
  exact ⟨hplaced, le_refl _⟩

theorem keeps_throw (f : Fault) : Keeps (throw f : Build α) := by
  intro t b t' h
  cases h

theorem keeps_get : Keeps (get : Build Table) := by
  intro t a t' h hplaced
  cases h
  exact ⟨hplaced, le_refl _⟩

/-- What two readers keep, one after the other, both of them together keep. -/
theorem Keeps.bind {act : Build α} {next : α → Build β} (h : Keeps act)
    (hnext : ∀ a, Keeps (next a)) : Keeps (act >>= next) := by
  intro t b t'' hrun hplaced
  rw [StateT.run_bind] at hrun
  obtain ⟨⟨a, t'⟩, hact, hrest⟩ := bind_eq_ok.mp hrun
  obtain ⟨hplaced', hle⟩ := h t a t' hact hplaced
  obtain ⟨hplaced'', hle'⟩ := hnext a t' b t'' hrest hplaced'
  exact ⟨hplaced'', le_trans hle hle'⟩

/-- A change that keeps all rules in place is fine in the middle of reading. -/
theorem keeps_modify {f : Table → Table}
    (hf : ∀ t, Placed t.rules → Placed (f t).rules ∧ t.rules.size ≤ (f t).rules.size) :
    Keeps (modify f : Build PUnit) := by
  intro t a t' h hplaced
  cases h
  exact hf t hplaced

/-- Reading a pattern touches no rule. -/
theorem keeps_pattern (source what : String) (value : Json) :
    Keeps (pattern source what value) := by
  unfold pattern
  split
  · split
    · exact keeps_pure _
    · exact keeps_throw _
  · exact keeps_throw _

theorem keeps_ruleOf (source : String) (id : Nat) (members : Json.Members) :
    Keeps (ruleOf source id members) := by
  unfold ruleOf
  dsimp only
  split
  · exact (keeps_pattern _ _ _).bind fun _ => keeps_pure _
  · refine (keeps_pattern _ _ _).bind fun _ => ?_
    split
    · exact (keeps_pattern _ _ _).bind fun _ => keeps_pure _
    · exact keeps_throw _
  · exact keeps_pure _

end keeps

/-- A new rule is put at the place that it names. -/
theorem placed_push {rules : Array Rule} (h : Placed rules) :
    Placed (rules.push { id := rules.size }) := by
  intro i r hr
  rw [Array.getElem?_push] at hr
  split at hr
  next heq =>
    cases hr
    exact heq.symm
  · exact h i r hr

/-- A rule that is filled in stands at the place that it names. -/
theorem placed_fill {rules : Array Rule} (h : Placed rules) (rule : Rule) :
    Placed (rules.setIfInBounds rule.id rule) := by
  intro i r hr
  rw [Array.getElem?_setIfInBounds] at hr
  split at hr
  next heq =>
    split at hr
    · cases hr
      exact heq
    · cases hr
  · exact h i r hr

/-- Taking a place adds a rule there. -/
theorem keeps_takePlace (key : Option String) : Keeps (takePlace key) := by
  intro t id t' h hplaced
  cases h
  exact ⟨placed_push hplaced, by simp⟩

theorem keeps_fill (rule : Rule) : Keeps (fill rule) :=
  keeps_modify fun _ hplaced => ⟨placed_fill hplaced rule, by simp⟩

section parts

variable {source : String} {entry : String → Build (Option Nat)}

/-- An include touches no rule but by reading an entry. -/
theorem keeps_included (hentry : ∀ key, Keeps (entry key)) (value : Json) :
    Keeps (included source entry value) := by
  unfold included
  split
  · split
    · exact keeps_throw _
    · split
      · exact keeps_pure _
      · split
        · exact hentry _
        · exact keeps_pure _
  · exact keeps_throw _

-- one case for each shape of a description, as in the readers themselves
mutual

/-- Reading a rule keeps all rules in place, as long as reading entries does. -/
theorem keeps_rule (hentry : ∀ key, Keeps (entry key)) (key : Option String) :
    ∀ value : Json, Keeps (rule source entry key value)
  | .obj members => by
    unfold rule
    split
    · exact keeps_included hentry _
    · exact (keeps_takePlace key).bind fun id => (keeps_ruleOf source id members).bind fun _ =>
        (keeps_innerOf hentry members).bind fun _ => (keeps_fill _).bind fun _ => keeps_pure _
  | .null => by unfold rule; exact keeps_throw _
  | .bool _ => by unfold rule; exact keeps_throw _
  | .int _ => by unfold rule; exact keeps_throw _
  | .float _ => by unfold rule; exact keeps_throw _
  | .arr _ => by unfold rule; exact keeps_throw _
  | .str _ => by unfold rule; exact keeps_throw _

/-- So does reading the rules in a description. -/
theorem keeps_innerOf (hentry : ∀ key, Keeps (entry key)) :
    ∀ members : List (String × Json), Keeps (innerOf source entry members)
  | [] => by unfold innerOf; exact keeps_pure _
  | (key, value) :: rest => by
    unfold innerOf
    split
    · exact keeps_listed hentry value
    · exact keeps_innerOf hentry rest

/-- So does reading a list. -/
theorem keeps_listed (hentry : ∀ key, Keeps (entry key)) :
    ∀ value : Json, Keeps (listed source entry value)
  | .null => by unfold listed; exact keeps_pure _
  | .arr items => by unfold listed; exact keeps_each hentry items
  | .obj _ => by unfold listed; exact keeps_throw _
  | .bool _ => by unfold listed; exact keeps_throw _
  | .int _ => by unfold listed; exact keeps_throw _
  | .float _ => by unfold listed; exact keeps_throw _
  | .str _ => by unfold listed; exact keeps_throw _

/-- So does reading one rule after the other. -/
theorem keeps_each (hentry : ∀ key, Keeps (entry key)) :
    ∀ items : List Json, Keeps (each source entry items)
  | [] => by unfold each; exact keeps_pure _
  | item :: rest => by
    unfold each
    exact (keeps_rule hentry none item).bind fun _ =>
      (keeps_each hentry rest).bind fun _ => keeps_pure _

end

end parts

/-- Reading an entry keeps all rules in place, however many steps are left. -/
theorem keeps_entry (source : String) (repository : Json.Members) (hops : Nat)
    (underWay : List String) (key : String) :
    Keeps (entry source repository hops underWay key) := by
  induction hops generalizing underWay key with
  | zero => exact keeps_throw _
  | succ hops ih =>
    refine keeps_get.bind fun t => ?_
    split
    · exact keeps_pure _
    · split
      · exact keeps_throw _
      next value _ =>
        have hread : Keeps (rule source (entry source repository hops (key :: underWay))
            (some key) value) := keeps_rule (fun key => ih _ key) _ _
        have hnote : ∀ n, Keeps (modify fun t => { t with places := (key, n) :: t.places }) :=
          fun n => keeps_modify fun _ hplaced => ⟨hplaced, le_refl _⟩
        split
        on_goal 1 => refine (keeps_throw _).bind fun _ => ?_
        all_goals
          refine hread.bind fun id => ?_
          cases id with
          | none => exact keeps_pure _
          | some n => exact (hnote n).bind fun _ => keeps_pure _

/-- The root comes first, so the table is never empty. -/
theorem table_placed {source : String} {members : Json.Members} {rules : Array Rule}
    (h : table source members = .ok rules) : Placed rules ∧ 0 < rules.size := by
  unfold table at h
  obtain ⟨entries, _, h⟩ := bind_eq_ok.mp h
  obtain ⟨⟨_, t⟩, hrun, h⟩ := bind_eq_ok.mp h
  cases h
  -- the first place is taken before anything is read
  rw [StateT.run_bind] at hrun
  obtain ⟨⟨id, t₁⟩, hroot, hrun⟩ := bind_eq_ok.mp hrun
  have hfirst : Placed t₁.rules ∧ 0 < t₁.rules.size := by
    cases hroot
    exact ⟨placed_push (by simp [Placed]), by simp⟩
  have hinner : Keeps (innerOf source (entry source entries (entries.length + 1) []) members) :=
    keeps_innerOf (keeps_entry source entries (entries.length + 1) []) members
  have hfilled : Keeps (innerOf source (entry source entries (entries.length + 1) []) members >>=
      fun inner => fill { id := 0, inner }) := hinner.bind fun _ => keeps_fill _
  obtain ⟨hplaced, hle⟩ := hfilled _ _ _ hrun hfirst.1
  exact ⟨hplaced, lt_of_lt_of_le hfirst.2 hle⟩

end Build

/-- The rules of a grammar are where they say, and there is one at least. -/
theorem placed_of_ofMembers {source : String} {members : Json.Members} {g : Grammar}
    (h : ofMembers source members = .ok g) : Placed g.rules ∧ 0 < g.rules.size := by
  unfold ofMembers at h
  split at h
  · dsimp only at h
    split at h
    · cases h
    · obtain ⟨rules, htable, h⟩ := bind_eq_ok.mp h
      cases h
      exact Build.table_placed htable
  · cases h

/-- The rules of a grammar that was read are at the places that they name. -/
theorem placed_of_ofJson {source : String} {raw : Json} {g : Grammar}
    (h : ofJson source raw = .ok g) : Placed g.rules ∧ 0 < g.rules.size := by
  unfold ofJson at h
  split at h
  · split at h
    · exact placed_of_ofMembers h
    all_goals cases h
  · exact placed_of_ofMembers h
  · cases h

/-! ## States -/

/-- The frames of an owned state: the root's comes first, and all are of rules of the table. -/
theorem owns_iff {g : Grammar} {s : LineState} : g.owns s = true ↔
    s.frames.head? = some g.initialFrame ∧ ∀ f ∈ s.frames, f.rule < g.rules.size := by
  simp [owns]

/-- The state before the first line is the grammar's own. -/
theorem owns_initialState {g : Grammar} (h : 0 < g.rules.size) : g.owns g.initialState = true := by
  rw [owns_iff]
  simp [initialState, initialFrame, h]

/-- A line starts only in a state of the grammar's own. -/
theorem owns_of_startState {g : Grammar} (hg : 0 < g.rules.size) {previous : Previous}
    {s : LineState} (h : startState g previous = .ok s) : g.owns s = true := by
  unfold startState at h
  split at h
  · cases h
    exact owns_initialState hg
  · split at h
    next howns =>
      cases h
      exact howns
    · cases h
  · cases h

/-- The outermost block stays open. -/
theorem owns_pop {g : Grammar} {s : LineState} (h : g.owns s = true) : g.owns s.pop = true := by
  unfold LineState.pop
  split
  · exact h
  next hlen =>
    rw [owns_iff] at h ⊢
    cases hframes : s.frames with
    | nil => simp [hframes] at hlen
    | cons f rest =>
      have hne : rest ≠ [] := by
        rintro rfl
        simp [hframes] at hlen
      rw [hframes] at h
      refine ⟨?_, fun f' hf' => h.2 f' (List.dropLast_subset _ hf')⟩
      rw [List.dropLast_cons_of_ne_nil hne, List.head?_cons]
      exact h.1

/-- A state stays the grammar's own when a block of one of its rules is opened. -/
theorem owns_push {g : Grammar} {s : LineState} (h : g.owns s = true) {f : Frame}
    (hf : f.rule < g.rules.size) : g.owns (s.push f) = true := by
  rw [owns_iff] at h ⊢
  obtain ⟨hhead, hall⟩ := h
  refine ⟨?_, fun f' hf' => ?_⟩
  · rw [LineState.push, List.head?_append, hhead]
    rfl
  · rcases List.mem_append.mp hf' with hf' | hf'
    · exact hall f' hf'
    · rw [List.mem_singleton.mp hf']
      exact hf

/-! ## Matches are of rules of the table -/

/-- The rule of a match that is taken is one of the grammar's. -/
theorem rule_of_move {g : Grammar} {text : Array Char} {scan : Scan} {frame : Frame} {c : Choice}
    (h : scan.move g text frame = .ok (.take c)) : ∃ i : Nat, g.rules[i]? = some c.rule := by
  cases offers_of_move h with
  | ending _ hrule _ _ => exact ⟨_, hrule⟩
  | rule hrule _ _ => exact ⟨_, hrule⟩

/-! ## Lines -/

/-- A step of a scan opens blocks of rules of the table only. -/
theorem owns_of_step {g : Grammar} (hg : Placed g.rules) {text : Array Char} {scan next : Scan}
    (hscan : g.owns scan.state = true) (h : scan.step g text = .ok (some next)) :
    g.owns next.state = true := by
  rcases step_state h with hsame | ⟨frame, c, _, hmove, hafter⟩
  · rw [hsame]
    exact hscan
  · unfold Choice.stateAfter at hafter
    split at hafter
    · rw [← Except.ok.inj hafter]
      exact owns_pop hscan
    · split at hafter
      · obtain ⟨ending, _, hafter⟩ := bind_eq_ok.mp hafter
        obtain ⟨i, hi⟩ := rule_of_move hmove
        have hid : c.rule.id < g.rules.size := by
          rw [hg i c.rule hi]
          exact (Array.getElem?_eq_some_iff.mp hi).1
        rw [← Except.ok.inj hafter]
        exact owns_push hscan hid
      · rw [← Except.ok.inj hafter]
        exact hscan

/-- The state that a line leaves is the grammar's own. -/
theorem owns_of_tokenizeLine {g : Grammar} (hg : Placed g.rules) (hne : 0 < g.rules.size)
    {line : String} {previous : Previous} {r : LineTokens}
    (h : g.tokenizeLine line previous = .ok r) : g.owns r.state = true := by
  obtain ⟨state, last, hstart, hscan, rfl⟩ := scan_of_tokenizeLine h
  have hlast := scanLine_induct (P := fun s => g.owns s.state = true)
    (fun _ _ => owns_of_step hg) _ (owns_of_startState hne hstart) hscan
  exact hlast

/-! ## What is refused -/

/-- Is a fault about a state that is not the grammar's own? -/
def Foreign (fault : Fault) : Prop :=
  ∃ source shown, fault = .grammar source (.foreignState shown)

/-- An outcome that is no such fault. -/
def Homely {α : Type} (x : Except Fault α) : Prop := ∀ fault, x = .error fault → ¬ Foreign fault

section homely

variable {α β : Type}

theorem homely_ok (a : α) : Homely (.ok a) := by
  intro fault h
  cases h

theorem homely_error {fault : Fault} (h : ¬ Foreign fault) :
    Homely (.error fault : Except Fault α) := by
  rintro _ ⟨⟩
  exact h

/-- Two operations complain of no state if neither of them does. -/
theorem Homely.bind {x : Except Fault α} {f : α → Except Fault β} (h : Homely x)
    (hf : ∀ a, Homely (f a)) : Homely (x >>= f) := by
  cases x with
  | ok a => exact hf a
  | error fault => exact homely_error (h fault rfl)

/-- A complaint about a pattern is none about a state. -/
theorem not_foreign_ofPattern {source pattern : String} (e : Regex.Fault) :
    ¬ Foreign (Fault.ofPattern (.grammar source (.badEndPattern pattern)) e) := by
  rintro ⟨source, shown, h⟩
  cases e <;> cases h

/-- The end of a block is looked for without a complaint about the state. -/
theorem homely_endChoice? (g : Grammar) (text : Array Char) (pos : Nat) (frame : Frame) :
    Homely (endChoice? g text pos frame) := by
  unfold endChoice?
  split
  next source rule _ _ =>
    have hpattern : Homely (g.endPattern source) := by
      intro fault h
      unfold endPattern at h
      cases hcompile : Regex.compile source with
      | ok r => rw [hcompile] at h; cases h
      | error e =>
        rw [hcompile] at h
        cases h
        exact not_foreign_ofPattern e
    exact hpattern.bind fun _ => homely_ok _
  · exact homely_ok _

/-- So is the next match. -/
theorem homely_nextMatch (g : Grammar) (text : Array Char) (pos : Nat) (frame : Frame) :
    Homely (nextMatch g text pos frame) := by
  unfold nextMatch
  refine (homely_endChoice? g text pos frame).bind fun ending => ?_
  split
  · split <;> exact homely_ok _
  · exact homely_ok _

theorem homely_move (g : Grammar) (text : Array Char) (scan : Scan) (frame : Frame) :
    Homely (scan.move g text frame) := by
  unfold Scan.move
  refine (homely_nextMatch g text scan.pos frame).bind fun found => ?_
  split
  · exact homely_ok _
  · split <;> exact homely_ok _

theorem homely_groupSpans (m : Regex.Found) (groupCount : Nat) (captures : Captures) :
    Homely (groupSpans m groupCount captures) := by
  induction captures with
  | nil => exact homely_ok _
  | cons named rest ih =>
    obtain ⟨group, name⟩ := named
    unfold groupSpans
    split
    · exact ih
    · split
      · exact homely_error (by rintro ⟨_, _, ⟨⟩⟩)
      · refine ih.bind fun later => ?_
        split <;> exact homely_ok _

/-- References are replaced without a complaint about the state. -/
theorem homely_replaceReferences {value : List Nat → Except Fault (List Char)}
    (hvalue : ∀ ds, Homely (value ds)) (skip : Nat) (cs : List Char) :
    Homely (replaceReferences value skip cs) := by
  induction cs generalizing skip with
  | nil => cases skip <;> exact homely_ok _
  | cons c rest ih =>
    cases skip with
    | succ skip => exact ih skip
    | zero =>
      unfold replaceReferences
      dsimp only
      split
      · exact (hvalue _).bind fun _ => (ih _).bind fun _ => homely_ok _
      · exact (ih _).bind fun _ => homely_ok _

theorem homely_resolveEnd (text : Array Char) (m : Regex.Found) (rule : Rule) :
    Homely (resolveEnd text m rule) := by
  have hvalue : ∀ ds, Homely (referenceText text m ds) := by
    intro ds
    unfold referenceText
    split
    · exact homely_error (by rintro ⟨_, _, ⟨⟩⟩)
    · split <;> exact homely_ok _
  exact (homely_replaceReferences hvalue 0 _).bind fun _ => homely_ok _

/-- A match is taken without a complaint about the state. -/
theorem homely_take (text : Array Char) (c : Choice) (frame : Frame) (scan : Scan) :
    Homely (take text c frame scan) := by
  have hemit : ∀ tokens, Homely
      (emitMatch tokens c.found c.groupCount (c.scopes frame) c.captures) := fun tokens =>
    (homely_groupSpans _ _ _).bind fun _ => homely_ok _
  have hstate : Homely (c.stateAfter text frame scan.state) := by
    unfold Choice.stateAfter
    split
    · exact homely_ok _
    · split
      · exact (homely_resolveEnd _ _ _).bind fun _ => homely_ok _
      · exact homely_ok _
  exact (hemit _).bind fun _ => hstate.bind fun _ => homely_ok _

theorem homely_step (g : Grammar) (text : Array Char) (scan : Scan) :
    Homely (scan.step g text) := by
  unfold Scan.step
  split
  · exact homely_ok _
  · refine (homely_move g text scan _).bind fun move => ?_
    cases move with
    | rest => exact homely_ok _
    | skip stop => exact homely_ok _
    | take c => exact (homely_take text c _ scan).bind fun _ => homely_ok _

/-- A line is scanned without a complaint about the state. -/
theorem homely_scanLine (g : Grammar) (text : Array Char) (fuel : Nat) (scan : Scan) :
    Homely (scanLine g text fuel scan) := by
  induction fuel generalizing scan with
  | zero => exact homely_ok _
  | succ fuel ih =>
    refine (homely_step g text scan).bind fun after => ?_
    cases after with
    | none => exact homely_ok _
    | some next => exact ih next

end homely

/-- A line is only refused for the state it starts in when that is not the grammar's own. -/
theorem homely_tokenizeLine {g : Grammar} (line : String) {previous : Previous}
    (hprevious : previous = .nothing ∨ ∃ s, previous = .state s ∧ g.owns s = true) :
    Homely (g.tokenizeLine line previous) := by
  have hstart : Homely (startState g previous) := by
    obtain rfl | ⟨s, rfl, howns⟩ := hprevious
    · exact homely_ok _
    · simp only [startState, if_pos howns]
      exact homely_ok _
  exact hstart.bind fun _ => (homely_scanLine _ _ _ _).bind fun _ => homely_ok _

end Grammar

end Conceal
