import Conceal.Proofs.Grammar.Circular
import Conceal.Proofs.Grammar.Flattening
import Conceal.Proofs.Grammar.Ownership

/-!
The match that comes next. All that can match inside a block is looked for at places: the pattern
that ends the block at the first one, and each rule where it stands in the block's lists. The match
that comes next starts leftmost, and of those that start there it is the one at the first place; the
search may stop early, because nothing starts before the character that it starts from.
Main statement: `nextMatch_eq_iff`.
-/

namespace Conceal

namespace Regex

/-- A search from `pos` finds nothing before `pos`, also behind the end of the text. -/
theorem le_start_of_search? {r : Regex} {text : Array Char} {pos : Nat} {m : Found}
    (h : r.search? text pos = some m) : pos ≤ m.start := by
  by_cases hpos : pos ≤ text.size
  · exact (search?_inside hpos h).start
  · have hnone : text.size + 1 - pos = 0 := by omega
    rw [search?, hnone] at h
    cases h

end Regex

namespace Grammar

variable {g : Grammar} {text : Array Char} {pos : Nat} {f : Frame} {place place' place'' : List Nat}
  {c c' c'' : Choice}

/-! ## Alternatives -/

/-- What can match inside a block, with the place where it is looked for: the pattern that ends the
block, before all rules, and the rules that stand in the lists of the block's rule. -/
inductive Alternative (g : Grammar) (text : Array Char) (pos : Nat) (f : Frame) :
    List Nat → Choice → Prop
  | ending {source : String} {rule : Rule} {pattern : Regex} {m : Regex.Found}
      (hsource : f.endSource = some source) (hrule : g.rules[f.rule]? = some rule)
      (hpattern : g.endPattern source = .ok pattern) (hfound : pattern.search? text pos = some m) :
      Alternative g text pos f [] ⟨.ending, rule, m, pattern.groupCount⟩
  | rule {owner rule : Rule} {place : List Nat} {id : Nat} {pattern : Regex} {m : Regex.Found}
      (howner : g.rules[f.rule]? = some owner)
      (hstands : Stands g.rules [f.rule] owner.inner place id) (hrule : g.rules[id]? = some rule)
      (hpattern : rule.pattern? = some pattern) (hfound : pattern.search? text pos = some m) :
      Alternative g text pos f place ⟨.rule, rule, m, pattern.groupCount⟩

/-- A match starts further left than another one, or where it does and is looked for no later. -/
def Precedes (place : List Nat) (c : Choice) (place' : List Nat) (c' : Choice) : Prop :=
  c.found.start < c'.found.start ∨ c.found.start = c'.found.start ∧ place ≤ place'

/-- The outcome of looking at all alternatives: none matches, or one that precedes them all. -/
def Earliest (g : Grammar) (text : Array Char) (pos : Nat) (f : Frame) : Option Choice → Prop
  | none => ∀ place c, ¬ Alternative g text pos f place c
  | some c => ∃ place, Alternative g text pos f place c ∧
      ∀ place' c', Alternative g text pos f place' c' → Precedes place c place' c'

theorem Precedes.refl (place : List Nat) (c : Choice) : Precedes place c place c :=
  Or.inr ⟨rfl, le_refl _⟩

/-- What precedes what precedes a third precedes the third. -/
theorem Precedes.trans (h : Precedes place c place' c') (h' : Precedes place' c' place'' c'') :
    Precedes place c place'' c'' := by
  rcases h with hlt | ⟨heq, hle⟩
  · rcases h' with hlt' | ⟨heq', _⟩
    · exact Or.inl (hlt.trans hlt')
    · exact Or.inl (heq' ▸ hlt)
  · rcases h' with hlt' | ⟨heq', hle'⟩
    · exact Or.inl (heq ▸ hlt')
    · exact Or.inr ⟨heq.trans heq', hle.trans hle'⟩

/-- A match that starts no later and is looked for before. -/
theorem Precedes.of_le (hstart : c.found.start ≤ c'.found.start) (hplace : place < place') :
    Precedes place c place' c' := by
  rcases lt_or_eq_of_le hstart with hlt | heq
  · exact Or.inl hlt
  · exact Or.inr ⟨heq, le_of_lt hplace⟩

/-- Two alternatives that precede one another stand at the same place. -/
theorem Precedes.antisymm (h : Precedes place c place' c') (h' : Precedes place' c' place c) :
    place = place' := by
  rcases h with hlt | ⟨_, hle⟩
  · rcases h' with hlt' | ⟨heq', _⟩
    · exact absurd hlt (not_lt.mpr (le_of_lt hlt'))
    · exact absurd hlt (not_lt.mpr (le_of_eq heq'))
  · rcases h' with hlt' | ⟨_, hle'⟩
    · omega
    · exact le_antisymm hle hle'

/-- No alternative starts before the position. -/
theorem Alternative.le_start (h : Alternative g text pos f place c) : pos ≤ c.found.start := by
  cases h with
  | ending _ _ _ hfound => exact Regex.le_start_of_search? hfound
  | rule _ _ _ _ hfound => exact Regex.le_start_of_search? hfound

/-- There is one alternative at a place. -/
theorem Alternative.unique (h : Alternative g text pos f place c)
    (h' : Alternative g text pos f place c') : c = c' := by
  cases h with
  | ending hsource hrule hpattern hfound =>
    cases h' with
    | ending hsource' hrule' hpattern' hfound' =>
      cases hsource.symm.trans hsource'
      cases hrule.symm.trans hrule'
      cases hpattern.symm.trans hpattern'
      cases hfound.symm.trans hfound'
      rfl
    | rule _ hstands' _ _ _ => obtain ⟨_, _, ⟨⟩⟩ := hstands'.exists_cons
  | rule howner hstands hrule hpattern hfound =>
    cases h' with
    | ending _ _ _ _ => obtain ⟨_, _, ⟨⟩⟩ := hstands.exists_cons
    | rule howner' hstands' hrule' hpattern' hfound' =>
      cases howner.symm.trans howner'
      cases hstands.unique hstands'
      cases hrule.symm.trans hrule'
      cases hpattern.symm.trans hpattern'
      cases hfound.symm.trans hfound'
      rfl

/-- There is one earliest match at most. -/
theorem Earliest.unique {found found' : Option Choice} (h : Earliest g text pos f found)
    (h' : Earliest g text pos f found') : found = found' := by
  cases found with
  | none =>
    cases found' with
    | none => rfl
    | some c' =>
      obtain ⟨place', halt', _⟩ := h'
      exact absurd halt' (h place' c')
  | some c =>
    obtain ⟨place, halt, hfirst⟩ := h
    cases found' with
    | none => exact absurd halt (h' place c)
    | some c' =>
      obtain ⟨place', halt', hfirst'⟩ := h'
      obtain rfl := (hfirst place' c' halt').antisymm (hfirst' place c halt)
      rw [halt.unique halt']

/-! ## Looking through the rules -/

/-- The match of a rule. -/
def ruleChoice? (g : Grammar) (text : Array Char) (pos : Nat) (id : Nat) : Option Choice := do
  let rule ← g.rules[id]?
  let pattern ← rule.pattern?
  let m ← pattern.search? text pos
  return ⟨.rule, rule, m, pattern.groupCount⟩

/-- What a rule offers is the first match of its pattern. -/
theorem ruleChoice?_eq_some_iff {id : Nat} : ruleChoice? g text pos id = some c ↔
    ∃ rule pattern m, g.rules[id]? = some rule ∧ rule.pattern? = some pattern ∧
      pattern.search? text pos = some m ∧ c = ⟨.rule, rule, m, pattern.groupCount⟩ := by
  simp only [ruleChoice?, Option.bind_eq_bind, Option.bind_eq_some_iff, Option.pure_def,
    Option.some.injEq, eq_comm (a := c)]
  constructor
  · rintro ⟨rule, hrule, pattern, hpattern, m, hm, rfl⟩
    exact ⟨rule, pattern, m, hrule, hpattern, hm, rfl⟩
  · rintro ⟨rule, pattern, m, hrule, hpattern, hm, rfl⟩
    exact ⟨rule, hrule, pattern, hpattern, m, hm, rfl⟩

theorem firstCandidate_cons (id : Nat) (rest : List Nat) (best : Option Choice) :
    firstCandidate g text pos (id :: rest) best =
      match ruleChoice? g text pos id with
      | none => firstCandidate g text pos rest best
      | some c =>
        if improves c.found best then
          if c.found.start = pos then some c else firstCandidate g text pos rest (some c)
        else firstCandidate g text pos rest best := by
  rw [firstCandidate, ruleChoice?]
  cases g.rules[id]? with
  | none => rfl
  | some rule =>
    simp only [Option.bind_eq_bind, Option.bind_some]
    cases rule.pattern? with
    | none => rfl
    | some pattern =>
      simp only [Option.bind_some]
      cases pattern.search? text pos with
      | none => rfl
      | some m => rfl

/-- The outcome of looking through rules at places, given the best match before: it is the best one
or that of a rule, and precedes all of them. -/
def Best (g : Grammar) (text : Array Char) (pos : Nat) (best : Option (List Nat × Choice))
    (rules : List (List Nat × Nat)) : Option Choice → Prop
  | none => best = none ∧ ∀ e ∈ rules, ruleChoice? g text pos e.2 = none
  | some c => ∃ place, (best = some (place, c) ∨
        ∃ e ∈ rules, e.1 = place ∧ ruleChoice? g text pos e.2 = some c) ∧
      (∀ b ∈ best, Precedes place c b.1 b.2) ∧
      ∀ e ∈ rules, ∀ c' ∈ ruleChoice? g text pos e.2, Precedes place c e.1 c'

theorem le_start_of_ruleChoice? {id : Nat} (h : ruleChoice? g text pos id = some c) :
    pos ≤ c.found.start := by
  obtain ⟨_, _, _, _, _, hfound, rfl⟩ := ruleChoice?_eq_some_iff.mp h
  exact Regex.le_start_of_search? hfound

/-- A match improves on the best one so far only by starting before it. -/
private theorem lt_of_improves {best : Option (List Nat × Choice)}
    (h : improves c.found (best.map Prod.snd) = true) :
    ∀ b ∈ best, c.found.start < b.2.found.start := by
  rintro b ⟨⟩
  simpa [improves] using h

/-- A match that does not improve starts no earlier than the best one so far. -/
private theorem le_of_not_improves {best : Option (List Nat × Choice)}
    (h : ¬ improves c.found (best.map Prod.snd) = true) :
    ∃ b ∈ best, b.2.found.start ≤ c.found.start := by
  cases best with
  | none => exact absurd rfl h
  | some b => exact ⟨b, rfl, by simpa [improves] using h⟩

/-- A rule that is preceded by the best match before is passed over. -/
theorem Best.cons {best : Option (List Nat × Choice)} {e : List Nat × Nat}
    {rules : List (List Nat × Nat)} {found : Option Choice} (h : Best g text pos best rules found)
    (he : ∀ c ∈ ruleChoice? g text pos e.2, ∃ b ∈ best, Precedes b.1 b.2 e.1 c) :
    Best g text pos best (e :: rules) found := by
  cases found with
  | none =>
    obtain ⟨rfl, hnone⟩ := h
    refine ⟨rfl, ?_⟩
    intro e' he'
    rcases List.mem_cons.mp he' with rfl | he'
    · by_contra hsome
      obtain ⟨c, hc⟩ := Option.ne_none_iff_exists'.mp hsome
      obtain ⟨_, ⟨⟩, _⟩ := he c hc
    · exact hnone e' he'
  | some c =>
    obtain ⟨place, hfrom, hbest, hrules⟩ := h
    refine ⟨place, ?_, hbest, ?_⟩
    · rcases hfrom with hfrom | ⟨e', he', hfrom⟩
      · exact Or.inl hfrom
      · exact Or.inr ⟨e', List.mem_cons_of_mem _ he', hfrom⟩
    · intro e' he' c' hc'
      rcases List.mem_cons.mp he' with rfl | he'
      · obtain ⟨b, hb, hprecedes⟩ := he c' hc'
        exact (hbest b hb).trans hprecedes
      · exact hrules e' he' c' hc'

/-- A rule whose match is better than the best one before takes its place. -/
theorem Best.improve {best : Option (List Nat × Choice)} {e : List Nat × Nat}
    {rules : List (List Nat × Nat)} {found : Option Choice}
    (h : Best g text pos (some (e.1, c)) rules found) (hc : ruleChoice? g text pos e.2 = some c)
    (hlt : ∀ b ∈ best, c.found.start < b.2.found.start) :
    Best g text pos best (e :: rules) found := by
  cases found with
  | none => cases h.1
  | some c' =>
    obtain ⟨place, hfrom, hbest, hrules⟩ := h
    have hprecedes : Precedes place c' e.1 c := hbest _ rfl
    refine ⟨place, Or.inr ?_, ?_, ?_⟩
    · rcases hfrom with hfrom | ⟨e', he', hfrom⟩
      · cases hfrom
        exact ⟨e, List.mem_cons_self, rfl, hc⟩
      · exact ⟨e', List.mem_cons_of_mem _ he', hfrom⟩
    · intro b hb
      exact hprecedes.trans (Or.inl (hlt b hb))
    · intro e' he' c'' hc''
      rcases List.mem_cons.mp he' with rfl | he'
      · cases hc.symm.trans hc''
        exact hprecedes
      · exact hrules e' he' c'' hc''

/-- Going through the rules in their order keeps the best match so far the best of them. -/
theorem best_firstCandidate {rules : List (List Nat × Nat)}
    (hsorted : rules.Pairwise fun e e' => e.1 < e'.1) (best : Option (List Nat × Choice))
    (hbest : ∀ b ∈ best, ∀ e ∈ rules, b.1 < e.1) :
    Best g text pos best rules
      (firstCandidate g text pos (rules.map Prod.snd) (best.map Prod.snd)) := by
  induction rules generalizing best with
  | nil =>
    cases best with
    | none => exact ⟨rfl, by simp⟩
    | some b =>
      refine ⟨b.1, Or.inl rfl, ?_, by simp⟩
      rintro _ ⟨⟩
      exact .refl _ _
  | cons e rest ih =>
    obtain ⟨hfirst, hrest⟩ := List.pairwise_cons.mp hsorted
    have hlater : ∀ b ∈ best, ∀ e' ∈ rest, b.1 < e'.1 := fun b hb e' he' =>
      hbest b hb e' (List.mem_cons_of_mem _ he')
    rw [List.map_cons, firstCandidate_cons]
    cases hc : ruleChoice? g text pos e.2 with
    | none => exact (ih hrest best hlater).cons (by simp [hc])
    | some c =>
      dsimp only
      split
      next himproves =>
        split
        next hstart =>
          -- nothing starts before `pos`, so the rest need not be looked at
          refine ⟨e.1, Or.inr ⟨e, List.mem_cons_self, rfl, hc⟩, ?_, ?_⟩
          · intro b hb
            exact Or.inl (lt_of_improves himproves b hb)
          · intro e' he' c' hc'
            rcases List.mem_cons.mp he' with rfl | he'
            · cases hc.symm.trans hc'
              exact .refl _ _
            · exact .of_le (hstart ▸ le_start_of_ruleChoice? hc') (hfirst e' he')
        next =>
          have hbest' := ih hrest (some (e.1, c)) (by rintro _ ⟨⟩; exact hfirst)
          exact hbest'.improve hc (lt_of_improves himproves)
      next himproves =>
        refine (ih hrest best hlater).cons ?_
        intro c' hc'
        cases hc.symm.trans hc'
        obtain ⟨b, hb, hle⟩ := le_of_not_improves himproves
        exact ⟨b, hb, .of_le hle (hbest b hb e List.mem_cons_self)⟩

/-! ## The next match -/

theorem getElem?_candidates {source : String} {raw : Json} (hg : ofJson source raw = .ok g)
    {id : Nat} (hid : id < g.rules.size) :
    g.candidates[id]? = some (candidatesOf g.rules id) := by
  obtain ⟨_, scopeName, name, rules, _, _, rfl⟩ := Build.exists_table hg
  have hrange : (List.range rules.size)[id]? = some id := List.getElem?_range hid
  simp only [ofRules, List.getElem?_toArray, List.getElem?_map, hrange, Option.map_some]

/-- The candidates that are kept for a rule are those that can be found for it. -/
theorem getD_candidates {source : String} {raw : Json} (hg : ofJson source raw = .ok g) {id : Nat}
    (hid : id < g.rules.size) : g.candidates.getD id [] = candidatesOf g.rules id := by
  rw [Array.getD_eq_getD_getElem?, getElem?_candidates hg hid, Option.getD_some]

/-- The match of the block's end is the alternative at the first place. -/
theorem endChoice?_eq_some_iff : endChoice? g text pos f = .ok (some c) ↔
    Alternative g text pos f [] c := by
  constructor
  · intro h
    unfold endChoice? at h
    split at h
    next source rule hsource hrule =>
      obtain ⟨pattern, hpattern, h⟩ := bind_eq_ok.mp h
      obtain ⟨m, hm, rfl⟩ := Option.map_eq_some_iff.mp (Except.ok.inj h)
      exact .ending hsource hrule hpattern hm
    · cases h
  · intro h
    cases h with
    | ending hsource hrule hpattern hfound =>
      simp only [endChoice?, hsource, hrule, hpattern]
      exact congrArg Except.ok (congrArg (Option.map _) hfound)
    | rule _ hstands _ _ _ => obtain ⟨_, _, ⟨⟩⟩ := hstands.exists_cons

section block

variable {owner : Rule} (howner : g.rules[f.rule]? = some owner)

include howner

/-- Only a pattern that cannot be read stands in the way. -/
theorem endChoice?_eq_error_iff {e : Fault} : endChoice? g text pos f = .error e ↔
    ∃ ending, f.endSource = some ending ∧ g.endPattern ending = .error e := by
  unfold endChoice?
  cases hsource : f.endSource with
  | none => simp
  | some ending =>
    simp only [howner, Option.some.injEq, exists_eq_left']
    cases g.endPattern ending with
    | ok pattern => simp [bind, Except.bind, pure, Except.pure]
    | error e' => simp [bind, Except.bind]

/-- Looking for a match fails only for the end of the block that is open. -/
theorem nextMatch_eq_error_iff {e : Fault} : nextMatch g text pos f = .error e ↔
    ∃ ending, f.endSource = some ending ∧ g.endPattern ending = .error e := by
  have hend : endChoice? g text pos f = .error e ↔ _ := endChoice?_eq_error_iff howner
  rw [← hend, nextMatch]
  cases endChoice? g text pos f with
  | error e' => rfl
  | ok found =>
    cases found with
    | none => simp [bind, Except.bind, pure, Except.pure]
    | some c =>
      by_cases hstart : c.found.start = pos <;>
        simp [bind, Except.bind, pure, Except.pure, hstart]

/-- The best of the block's end and the rules at their places is the earliest alternative. -/
theorem earliest_of_best {ending found : Option Choice} {rules : List (List Nat × Nat)}
    (hending : endChoice? g text pos f = .ok ending)
    (hstands : ∀ e ∈ rules, Stands g.rules [f.rule] owner.inner e.1 e.2)
    (hfirst : ∀ place id, Stands g.rules [f.rule] owner.inner place id →
      ∃ e ∈ rules, e.2 = id ∧ e.1 ≤ place)
    (h : Best g text pos (ending.map fun c => ([], c)) rules found) :
    Earliest g text pos f found := by
  -- the end of the block is an alternative exactly if it is the choice that was compared
  have hend : ∀ c, Alternative g text pos f [] c ↔ ending = some c := by
    intro c
    rw [← endChoice?_eq_some_iff, hending, Except.ok.injEq]
  cases found with
  | none =>
    obtain ⟨hnone, hrules⟩ := h
    intro place c halt
    cases halt with
    | ending hsource hrule hpattern hfound =>
      rw [(hend _).mp (.ending hsource hrule hpattern hfound)] at hnone
      cases hnone
    | rule howner' hstands' hrule hpattern hfound =>
      cases howner.symm.trans howner'
      obtain ⟨e, he, rfl, _⟩ := hfirst _ _ hstands'
      have hc := ruleChoice?_eq_some_iff.mpr ⟨_, _, _, hrule, hpattern, hfound, rfl⟩
      rw [hrules e he] at hc
      cases hc
  | some c =>
    obtain ⟨place, hfrom, hbest, hrules⟩ := h
    refine ⟨place, ?_, ?_⟩
    · rcases hfrom with hfrom | ⟨e, he, rfl, hc⟩
      · obtain ⟨c', hc', heq⟩ := Option.map_eq_some_iff.mp hfrom
        cases heq
        exact (hend _).mpr hc'
      · obtain ⟨_, _, _, hrule, hpattern, hfound, rfl⟩ := ruleChoice?_eq_some_iff.mp hc
        exact .rule howner (hstands e he) hrule hpattern hfound
    · intro place' c' halt
      cases halt with
      | ending hsource hrule hpattern hfound =>
        have hc' := (hend _).mp (.ending hsource hrule hpattern hfound)
        exact hbest ([], _) (by rw [hc']; rfl)
      | rule howner' hstands' hrule hpattern hfound =>
        cases howner.symm.trans howner'
        -- a rule that stands in several places is compared at its first
        obtain ⟨e, he, rfl, hle⟩ := hfirst _ _ hstands'
        have hc' := ruleChoice?_eq_some_iff.mpr ⟨_, _, _, hrule, hpattern, hfound, rfl⟩
        exact (hrules e he _ hc').trans (Or.inr ⟨rfl, hle⟩)

/-- The match that comes next, if there is one, is the earliest alternative. -/
theorem earliest_of_nextMatch
    (hcandidates : g.candidates.getD f.rule [] = candidatesOf g.rules f.rule)
    {found : Option Choice} (h : nextMatch g text pos f = .ok found) :
    Earliest g text pos f found := by
  obtain ⟨rules, hrules, hstands, hsorted, hfirst⟩ := follows_candidatesOf howner
  rw [nextMatch, hcandidates, hrules] at h
  obtain ⟨ending, hending, h⟩ := bind_eq_ok.mp h
  have hnil : ∀ e ∈ rules, [] < e.1 := by
    intro e he
    obtain ⟨n, rest, hplace⟩ := (hstands e he).exists_cons
    rw [hplace]
    exact List.nil_lt_cons _ _
  cases ending with
  | none =>
    cases h
    exact earliest_of_best howner hending hstands hfirst
      (best_firstCandidate hsorted none (by simp))
  | some c =>
    dsimp only at h
    split at h
    next hstart =>
      cases h
      have halt := endChoice?_eq_some_iff.mp hending
      refine ⟨[], halt, ?_⟩
      intro place' c' halt'
      -- nothing starts before `pos`, and no place comes before the first one
      rcases lt_or_eq_of_le (hstart ▸ halt'.le_start) with hlt | heq
      · exact Or.inl hlt
      · exact Or.inr ⟨heq, not_lt.mp (List.not_lt_nil _)⟩
    next =>
      cases h
      exact earliest_of_best howner hending hstands hfirst
        (best_firstCandidate hsorted (some ([], c)) (by rintro _ ⟨⟩; exact hnil))

end block

/-- The match that comes next inside the innermost block is the earliest alternative: of the pattern
that ends the block and the rules that stand in its lists, those that match from `pos` on, the one
that starts leftmost; where several start there, the end before the rules and of these the one that
stands first; and none if nothing matches. The pattern that ends the block has to be readable, and
nothing else can fail. -/
theorem nextMatch_eq_iff {source : String} {raw : Json} (hg : ofJson source raw = .ok g)
    {s : LineState} (hs : g.owns s = true) (hf : s.top? = some f) (text : Array Char) (pos : Nat) :
    (∀ found, nextMatch g text pos f = .ok found ↔
      (∀ ending, f.endSource = some ending → ∃ pattern, g.endPattern ending = .ok pattern) ∧
        Earliest g text pos f found) ∧
    ∀ e, nextMatch g text pos f = .error e ↔
      ∃ ending, f.endSource = some ending ∧ g.endPattern ending = .error e := by
  have hrule : f.rule < g.rules.size :=
    (owns_iff.mp hs).2 f (List.mem_of_getLast? hf)
  have howner : g.rules[f.rule]? = some g.rules[f.rule] := Array.getElem?_eq_getElem hrule
  have hcandidates := getD_candidates hg hrule
  refine ⟨fun found => ⟨fun h => ⟨?_, earliest_of_nextMatch howner hcandidates h⟩, ?_⟩,
    fun e => nextMatch_eq_error_iff howner⟩
  · intro ending hending
    -- an end that cannot be read would have failed the search
    cases hpattern : g.endPattern ending with
    | ok pattern => exact ⟨pattern, rfl⟩
    | error e =>
      have herror : nextMatch g text pos f = .error e :=
        (nextMatch_eq_error_iff howner).mpr ⟨ending, hending, hpattern⟩
      rw [h] at herror
      cases herror
  · rintro ⟨hreadable, hearliest⟩
    cases hnext : nextMatch g text pos f with
    | ok found' =>
      rw [(earliest_of_nextMatch howner hcandidates hnext).unique hearliest]
    | error e =>
      obtain ⟨ending, hending, herror⟩ := (nextMatch_eq_error_iff howner).mp hnext
      obtain ⟨pattern, hpattern⟩ := hreadable ending hending
      rw [hpattern] at herror
      cases herror

/-- A list that holds itself and the list that holds it, before a rule that starts where another one
does. -/
def loops : Json :=
  .obj [("scopeName", .str "s"),
    ("patterns", .arr [.obj [("include", .str "#list")],
      .obj [("match", .str "ab"), ("name", .str "longer")]]),
    ("repository", .obj [("list", .obj [("patterns", .arr [.obj [("include", .str "$self")],
      .obj [("include", .str "#list")],
      .obj [("match", .str "a"), ("name", .str "inner")]])])])]

/-- The rule that stands first wins, though the other one has the longer match. -/
theorem inner_rule_first :
    ∃ g c, ofJson anonymous loops = .ok g ∧ g.owns g.initialState = true ∧
      g.initialState.top? = some g.initialFrame ∧ c.rule.name = some "inner" ∧
      c.found.start = 1 ∧ nextMatch g "xab".toList.toArray 0 g.initialFrame = .ok (some c) ∧
      Earliest g "xab".toList.toArray 0 g.initialFrame (some c) := by
  have hrun : (do
      let g ← ofJson anonymous loops
      let found ← nextMatch g "xab".toList.toArray 0 g.initialFrame
      return found.map fun (c : Choice) => (c.rule.name, c.found.start)).toOption
      = some (some (some "inner", 1)) := by
    decide +kernel
  obtain ⟨g, hg, hrun⟩ := toOption_bind_eq_some.mp hrun
  obtain ⟨found, hnext, hrun⟩ := toOption_bind_eq_some.mp hrun
  obtain ⟨c, rfl, hc⟩ := Option.map_eq_some_iff.mp (Option.some.inj hrun)
  obtain ⟨hname, hstart⟩ := Prod.mk.inj hc
  have howns := owns_initialState (placed_of_ofJson hg).2
  have hearliest := ((nextMatch_eq_iff hg howns rfl _ 0).1 (some c)).mp hnext
  exact ⟨g, c, hg, howns, rfl, hname, hstart, hnext, hearliest.2⟩

end Grammar

end Conceal
