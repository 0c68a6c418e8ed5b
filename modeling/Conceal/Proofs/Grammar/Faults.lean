import Conceal.LineScopes
import Conceal.Proofs.Grammar.Earliest
import Conceal.Proofs.Grammar.Nesting

/-!
What tokenizing a line can fail with. A grammar complains about a state that is not its own, and
about an end pattern that is malformed. There are three other ways to fail, each of them a step of
the scan: the pattern that ends the innermost block is refused for another reason, a match gives a
name to a group with a negative number, or the end of a block that is opened refers to a group by
more digits than can be read. Main statement: `fails_iff_breaks`.
-/

namespace Conceal

namespace Grammar

/-- The digits of the references in a text, in order; `skip` counts the characters that belong to
the reference before them. -/
def references : Nat → List Char → List (List Nat)
  | _, [] => []
  | skip + 1, _ :: rest => references skip rest
  | 0, c :: rest =>
    let ds := leadingDigits rest
    if c = '\\' ∧ ds ≠ [] then ds :: references ds.length rest else references 0 rest

/-- A scan is at a step that fails with no complaint of the grammar. -/
inductive Breaks (g : Grammar) (text : Array Char) (scan : Scan) : Prop
  /-- The pattern that ends the innermost block is refused, and yet not malformed. -/
  | ending {f : Frame} {ending : String} {e : Regex.Fault} (htop : scan.state.top? = some f)
      (hending : f.endSource = some ending) (hcompile : Regex.compile ending = .error e)
      (he : e ≠ .malformed) : Breaks g text scan
  /-- The match that comes next names a group with a negative number. -/
  | group {c : Choice} {named : Int × String} (hchoice : scan.choice? g text = some c)
      (hnamed : named ∈ c.captures) (hneg : named.1 < 0) : Breaks g text scan
  /-- The match that comes next opens a block whose end has a reference that is too long. -/
  | reference {c : Choice} {ds : List Nat} (hchoice : scan.choice? g text = some c)
      (hkind : c.kind = .rule) (hopens : c.rule.beginning.isSome)
      (hds : ds ∈ references 0 (c.rule.endSource.getD "").toList)
      (hlong : Number.maxDigits < ds.length) : Breaks g text scan

variable {g : Grammar} {text : Array Char} {scan : Scan} {f : Frame} {c : Choice} {fault : Fault}

/-! ## Taking a match -/

/-- The groups of a match cannot be told exactly if one of them has a negative number. -/
theorem groupSpans_eq_error_iff {m : Regex.Found} {groupCount : Nat} {captures : Captures} :
    groupSpans m groupCount captures = .error fault ↔
      fault = .outOfRange ∧ ∃ named ∈ captures, named.1 < 0 := by
  induction captures with
  | nil => simp [groupSpans]
  | cons named rest ih =>
    obtain ⟨group, name⟩ := named
    rw [groupSpans]
    split
    next hskip =>
      have hpos : ¬ group < 0 := by omega
      rw [ih]
      simp [hpos]
    · split
      next hneg => simp [hneg, eq_comm]
      next hneg =>
        rw [bind_eq_error, ih]
        constructor
        · rintro (⟨hfault, other, hother, hneg'⟩ | ⟨later, _, h⟩)
          · exact ⟨hfault, other, List.mem_cons_of_mem _ hother, hneg'⟩
          · cases hspan : m.span? group.toNat <;> rw [hspan] at h <;> cases h
        · rintro ⟨hfault, other, hother, hneg'⟩
          rcases List.mem_cons.mp hother with rfl | hother
          · exact absurd hneg' hneg
          · exact Or.inl ⟨hfault, other, hother, hneg'⟩

/-- The tokens of a match fail for the same reason. -/
theorem emitMatch_eq_error_iff {tokens : Array Token} {m : Regex.Found} {groupCount : Nat}
    {scopes : List String} {captures : Captures} :
    emitMatch tokens m groupCount scopes captures = .error fault ↔
      fault = .outOfRange ∧ ∃ named ∈ captures, named.1 < 0 := by
  rw [emitMatch, bind_eq_error, groupSpans_eq_error_iff]
  simp [pure, Except.pure]

/-- A reference fails exactly if its number is too long to be read. -/
theorem referenceText_eq_error_iff {m : Regex.Found} {ds : List Nat} :
    referenceText text m ds = .error fault ↔ fault = .malformed ∧ Number.maxDigits < ds.length := by
  unfold referenceText
  split
  next hlong => simp [hlong, eq_comm]
  next hlong => cases m.span? (Number.digitsValue ds) <;> simp [hlong]

/-- References are replaced one after the other, and one that is too long ends it. -/
theorem replaceReferences_eq_error_iff {m : Regex.Found} {skip : Nat} {cs : List Char} :
    replaceReferences (referenceText text m) skip cs = .error fault ↔
      fault = .malformed ∧ ∃ ds ∈ references skip cs, Number.maxDigits < ds.length := by
  induction cs generalizing skip with
  | nil => cases skip <;> simp [replaceReferences, references, pure, Except.pure]
  | cons c rest ih =>
    cases skip with
    | succ skip => exact ih
    | zero =>
      unfold replaceReferences references
      dsimp only
      split
      · constructor
        · intro h
          rcases bind_eq_error.mp h with hds | ⟨_, _, h⟩
          · obtain ⟨hfault, hlong⟩ := referenceText_eq_error_iff.mp hds
            exact ⟨hfault, _, List.mem_cons_self, hlong⟩
          · rcases bind_eq_error.mp h with hrest | ⟨_, _, h⟩
            · obtain ⟨hfault, ds, hds, hlong⟩ := ih.mp hrest
              exact ⟨hfault, ds, List.mem_cons_of_mem _ hds, hlong⟩
            · cases h
        · rintro ⟨rfl, ds, hds, hlong⟩
          refine bind_eq_error.mpr ?_
          cases hfirst : referenceText text m (leadingDigits rest) with
          | error e => exact Or.inl (by rw [(referenceText_eq_error_iff.mp hfirst).1])
          | ok value =>
            -- the first reference is not too long, so another one is
            rcases List.mem_cons.mp hds with rfl | hds
            · rw [referenceText_eq_error_iff.mpr ⟨rfl, hlong⟩] at hfirst
              cases hfirst
            · exact Or.inr ⟨value, rfl, bind_eq_error.mpr (Or.inl (ih.mpr ⟨rfl, ds, hds, hlong⟩))⟩
      · rw [bind_eq_error, ih]
        simp [pure, Except.pure]

/-- The end of a block cannot be told exactly if a reference in it has such a number. -/
theorem resolveEnd_eq_error_iff {m : Regex.Found} {rule : Rule} :
    resolveEnd text m rule = .error fault ↔ fault = .malformed ∧
      ∃ ds ∈ references 0 (rule.endSource.getD "").toList, Number.maxDigits < ds.length := by
  rw [resolveEnd, bind_eq_error, replaceReferences_eq_error_iff]
  simp [pure, Except.pure]

/-- The state after a match fails only where a block is opened whose end cannot be told. -/
theorem stateAfter_eq_error_iff {s : LineState} :
    c.stateAfter text f s = .error fault ↔ fault = .malformed ∧ c.kind = .rule ∧
      c.rule.beginning.isSome ∧
      ∃ ds ∈ references 0 (c.rule.endSource.getD "").toList, Number.maxDigits < ds.length := by
  unfold Choice.stateAfter
  split
  next hkind => simp [hkind]
  next hkind =>
    split
    next hopens =>
      rw [bind_eq_error, resolveEnd_eq_error_iff]
      simp [pure, Except.pure, hkind, hopens]
    next hopens => simp [hopens]

/-- Taking a match fails for a group with a negative number, or for a reference that is too long. -/
theorem exists_take_eq_error_iff :
    (∃ fault, take text c f scan = .error fault) ↔ (∃ named ∈ c.captures, named.1 < 0) ∨
      c.kind = .rule ∧ c.rule.beginning.isSome ∧
        ∃ ds ∈ references 0 (c.rule.endSource.getD "").toList, Number.maxDigits < ds.length := by
  constructor
  · rintro ⟨fault, h⟩
    rcases bind_eq_error.mp h with hemit | ⟨tokens, _, h⟩
    · exact Or.inl (emitMatch_eq_error_iff.mp hemit).2
    · rcases bind_eq_error.mp h with hstate | ⟨_, _, h⟩
      · exact Or.inr (stateAfter_eq_error_iff.mp hstate).2
      · cases h
  · intro h
    cases hemit : emitMatch (emit scan.tokens scan.pos c.found.start f.contentScopes) c.found
        c.groupCount (c.scopes f) c.captures with
    | error fault => exact ⟨fault, bind_eq_error.mpr (Or.inl hemit)⟩
    | ok tokens =>
      rcases h with hneg | hlong
      · rw [emitMatch_eq_error_iff.mpr ⟨rfl, hneg⟩] at hemit
        cases hemit
      · have hstate : c.stateAfter text f scan.state = .error .malformed :=
          stateAfter_eq_error_iff.mpr ⟨rfl, hlong⟩
        exact ⟨.malformed, bind_eq_error.mpr (Or.inr ⟨tokens, hemit,
          bind_eq_error.mpr (Or.inl hstate)⟩)⟩

/-- What goes wrong as a match is taken is not the grammar's own complaint. -/
theorem isGrammar_of_take (h : take text c f scan = .error fault) : fault.isGrammar = false := by
  rcases bind_eq_error.mp h with hemit | ⟨tokens, _, h⟩
  · rw [(emitMatch_eq_error_iff.mp hemit).1]
    rfl
  · rcases bind_eq_error.mp h with hstate | ⟨_, _, h⟩
    · rw [(stateAfter_eq_error_iff.mp hstate).1]
      rfl
    · cases h

/-! ## Steps -/

/-- A scan cannot move on exactly if looking for a match fails. -/
theorem move_eq_error_iff : scan.move g text f = .error fault ↔
    nextMatch g text scan.pos f = .error fault := by
  rw [Scan.move, bind_eq_error, or_iff_left_iff_imp]
  rintro ⟨found, _, h⟩
  cases found with
  | none => cases h
  | some c =>
    dsimp only at h
    split at h
    · split at h <;> cases h
    · cases h

/-- An end pattern is refused with no complaint of the grammar when it is not malformed. -/
theorem endPattern_eq_error_iff {ending : String} :
    (∃ fault, g.endPattern ending = .error fault ∧ fault.isGrammar = false) ↔
      ∃ e, Regex.compile ending = .error e ∧ e ≠ .malformed := by
  unfold endPattern
  cases hcompile : Regex.compile ending with
  | ok pattern => simp [Except.mapError]
  | error e => cases e <;> simp [Except.mapError, Fault.ofPattern, Fault.isGrammar]

/-- A step fails where the search for the next match fails, or where that match is taken. -/
theorem step_eq_error_iff (htop : scan.state.top? = some f) :
    scan.step g text = .error fault ↔ nextMatch g text scan.pos f = .error fault ∨
      ∃ c, scan.choice? g text = some c ∧ take text c f scan = .error fault := by
  have hchoice : ∀ c, scan.choice? g text = some c ↔ scan.move g text f = .ok (.take c) := by
    intro c
    simp only [Scan.choice?, htop]
    cases scan.move g text f with
    | error e => simp
    | ok move => cases move <;> simp
  simp only [Scan.step, htop]
  rw [bind_eq_error, move_eq_error_iff]
  refine or_congr_right ⟨?_, ?_⟩
  · rintro ⟨move, hmove, h⟩
    cases move with
    | rest => cases h
    | skip stop => cases h
    | take c =>
      rcases bind_eq_error.mp h with htake | ⟨_, _, h⟩
      · exact ⟨c, (hchoice c).mpr hmove, htake⟩
      · cases h
  · rintro ⟨c, hc, htake⟩
    exact ⟨.take c, (hchoice c).mp hc, bind_eq_error.mpr (Or.inl htake)⟩

/-- A step fails with no complaint of the grammar exactly where the scan breaks. -/
theorem breaks_iff (hrules : ∀ f, scan.state.top? = some f → f.rule < g.rules.size) :
    (∃ fault, scan.step g text = .error fault ∧ fault.isGrammar = false) ↔
      Breaks g text scan := by
  constructor
  · rintro ⟨fault, hstep, hgrammar⟩
    cases htop : scan.state.top? with
    | none =>
      rw [Scan.step, htop] at hstep
      cases hstep
    | some f =>
      -- a step fails in the search or when its match is taken
      rcases (step_eq_error_iff htop).mp hstep with hnext | ⟨c, hchoice, htake⟩
      · obtain ⟨ending, hending, hpattern⟩ :=
          (nextMatch_eq_error_iff (Array.getElem?_eq_getElem (hrules f htop))).mp hnext
        obtain ⟨e, hcompile, he⟩ := endPattern_eq_error_iff.mp ⟨fault, hpattern, hgrammar⟩
        exact .ending htop hending hcompile he
      · rcases exists_take_eq_error_iff.mp ⟨fault, htake⟩ with
          ⟨named, hnamed, hneg⟩ | ⟨hkind, hopens, ds, hds, hlong⟩
        · exact .group hchoice hnamed hneg
        · exact .reference hchoice hkind hopens hds hlong
  · -- the search has gone through when there is a choice, so what fails is to take it
    have htaken : ∀ c, scan.choice? g text = some c → ((∃ named ∈ c.captures, named.1 < 0) ∨
        c.kind = .rule ∧ c.rule.beginning.isSome ∧
          ∃ ds ∈ references 0 (c.rule.endSource.getD "").toList, Number.maxDigits < ds.length) →
        ∃ fault, scan.step g text = .error fault ∧ fault.isGrammar = false := by
      intro c hchoice h
      obtain ⟨f, htop, _⟩ := offers_of_choice? hchoice
      obtain ⟨fault, htake⟩ := exists_take_eq_error_iff.mpr h
      exact ⟨fault, (step_eq_error_iff htop).mpr (Or.inr ⟨c, hchoice, htake⟩),
        isGrammar_of_take htake⟩
    intro h
    cases h with
    | @ending f ending e htop hending hcompile he =>
      obtain ⟨fault, hpattern, hgrammar⟩ := endPattern_eq_error_iff.mpr ⟨e, hcompile, he⟩
      have hnext : nextMatch g text scan.pos f = .error fault :=
        (nextMatch_eq_error_iff (Array.getElem?_eq_getElem (hrules f htop))).mpr
          ⟨ending, hending, hpattern⟩
      exact ⟨fault, (step_eq_error_iff htop).mpr (Or.inl hnext), hgrammar⟩
    | group hchoice hnamed hneg => exact htaken _ hchoice (Or.inl ⟨_, hnamed, hneg⟩)
    | reference hchoice hkind hopens hds hlong =>
      exact htaken _ hchoice (Or.inr ⟨hkind, hopens, _, hds, hlong⟩)

/-! ## Lines -/

variable {line : String} {previous : Previous}

theorem exists_start_of_visited (h : Visited g line previous scan) :
    ∃ s, startState g previous = .ok s := by
  induction h with
  | start hs => exact ⟨_, hs⟩
  | step _ _ ih => exact ih

/-- A scan that a line goes through is on the way to what the whole scan comes to. -/
theorem scans_of_visited (h : Visited g line previous scan) {s : LineState}
    (hstart : startState g previous = .ok s) {outcome : Except Fault Scan} {n : Nat}
    (hscans : Scans g line.toList.toArray n (.start s) outcome) :
    ∃ n', Scans g line.toList.toArray n' scan outcome := by
  induction h with
  | start hs =>
    cases hs.symm.trans hstart
    exact ⟨n, hscans⟩
  | step _ hstep ih =>
    obtain ⟨n', hscans'⟩ := ih
    cases hscans' with
    | done hover =>
      rw [hstep] at hover
      cases hover
    | failed hfailed =>
      rw [hstep] at hfailed
      cases hfailed
    | step hstep' hrest =>
      cases hstep.symm.trans hstep'
      exact ⟨_, hrest⟩

/-- A scan that fails does so at a step of it. -/
theorem visited_failed {n : Nat} {outcome : Except Fault Scan}
    (h : Scans g line.toList.toArray n scan outcome) (hscan : Visited g line previous scan)
    (hfault : outcome = .error fault) : ∃ scan', Visited g line previous scan' ∧
      scan'.step g line.toList.toArray = .error fault := by
  induction h with
  | done _ => cases hfault
  | failed hfailed =>
    cases hfault
    exact ⟨_, hscan, hfailed⟩
  | step hstep _ ih => exact ih (.step hscan hstep) hfault

/-- Tokenizing a line fails where its state is not accepted, or at a step of its scan. -/
theorem tokenizeLine_eq_error_iff : g.tokenizeLine line previous = .error fault ↔
    startState g previous = .error fault ∨ ∃ scan, Visited g line previous scan ∧
      scan.step g line.toList.toArray = .error fault := by
  cases hstart : startState g previous with
  | error e =>
    have hline : g.tokenizeLine line previous = .error e := by
      rw [tokenizeLine, hstart]
      rfl
    rw [hline]
    constructor
    · intro h
      exact Or.inl (by rw [Except.error.inj h])
    · rintro (h | ⟨scan, hscan, _⟩)
      · rw [Except.error.inj h]
      · obtain ⟨s, hs⟩ := exists_start_of_visited hscan
        rw [hstart] at hs
        cases hs
  | ok s =>
    obtain ⟨n, _, hscans⟩ := scans_line g line s
    rw [tokenizeLine_eq hstart]
    generalize scanLine g line.toList.toArray (scanFuel g line.length) (.start s) = outcome at hscans
    -- steps are determined, so a scan that fails on the way is where the whole scan fails
    constructor
    · intro h
      cases outcome with
      | ok last => cases h
      | error e =>
        cases h
        exact Or.inr (visited_failed hscans (.start hstart) rfl)
    · rintro (h | ⟨scan, hscan, hfailed⟩)
      · cases h
      · obtain ⟨_, hrest⟩ := scans_of_visited hscan hstart hscans
        cases hrest with
        | done hover =>
          rw [hfailed] at hover
          cases hover
        | failed hfailed' =>
          cases hfailed.symm.trans hfailed'
          rfl
        | step hstep _ =>
          rw [hfailed] at hstep
          cases hstep

/-- Tokenizing a line fails with no complaint of the grammar: one of its scans breaks. -/
def BreaksIn (g : Grammar) (line : String) (previous : Previous) : Prop :=
  ∃ scan, Visited g line previous scan ∧ Breaks g line.toList.toArray scan

/-- Throughout a line the state is the grammar's own. -/
theorem owns_of_visited (hplaced : Placed g.rules) (hsize : 0 < g.rules.size)
    (h : Visited g line previous scan) : g.owns scan.state = true := by
  induction h with
  | start hs => exact owns_of_startState hsize hs
  | step _ hstep ih => exact owns_of_step hplaced ih hstep

/-- A state that is refused is the grammar's own complaint. -/
theorem isGrammar_of_startState (h : startState g previous = .error fault) :
    fault.isGrammar = true := by
  unfold startState at h
  split at h
  · cases h
  · split at h
    · cases h
    · cases h
      rfl
  · cases h
    rfl

/-- Tokenizing a line fails with no complaint of the grammar exactly when a scan of it breaks. -/
theorem fails_iff_breaks (hplaced : Placed g.rules) (hsize : 0 < g.rules.size) :
    (∃ fault, g.tokenizeLine line previous = .error fault ∧ fault.isGrammar = false) ↔
      g.BreaksIn line previous := by
  have hrules : ∀ scan, Visited g line previous scan → ∀ f, scan.state.top? = some f →
      f.rule < g.rules.size := fun scan hscan f htop =>
    (owns_iff.mp (owns_of_visited hplaced hsize hscan)).2 f (List.mem_of_getLast? htop)
  constructor
  · rintro ⟨fault, hline, hgrammar⟩
    rcases tokenizeLine_eq_error_iff.mp hline with hstart | ⟨scan, hscan, hstep⟩
    · rw [isGrammar_of_startState hstart] at hgrammar
      cases hgrammar
    · exact ⟨scan, hscan, (breaks_iff (hrules scan hscan)).mp ⟨fault, hstep, hgrammar⟩⟩
  · rintro ⟨scan, hscan, hbreaks⟩
    obtain ⟨fault, hstep, hgrammar⟩ := (breaks_iff (hrules scan hscan)).mpr hbreaks
    exact ⟨fault, tokenizeLine_eq_error_iff.mpr (Or.inr ⟨scan, hscan, hstep⟩), hgrammar⟩

end Grammar

end Conceal
