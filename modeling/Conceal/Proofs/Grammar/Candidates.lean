import Conceal.Proofs.Grammar.Earliest
import Conceal.Proofs.Grammar.Sharing
import Mathlib.Algebra.GroupWithZero.Nat
import Mathlib.Algebra.Order.BigOperators.Group.List

/-!
The rules to look for inside a rule. Going through its lists ends, also where they hold each other
in circles, as no list is gone into twice; and nothing is lost by that, so that all rules with a
pattern are found to which the rule leads through mere lists. Main statement: `candidates_complete`.
-/

namespace Conceal

namespace Grammar

variable {rules : Array Rule} {ids : List Nat} {id start : Nat} {rule : Rule} {s s' s'' : Search}

/-! ## Going through lists -/

/-- Lists are gone through one rule after the other. A rule with a pattern is found; a mere list is
gone into, unless it was before. There is no way on at a number of no rule. -/
inductive Walks (rules : Array Rule) : List Nat → Search → Search → Prop
  | nil {s : Search} : Walks rules [] s s
  | rule {id : Nat} {rest : List Nat} {r : Rule} {s s' : Search} (hrule : rules[id]? = some r)
      (hpattern : r.pattern?.isSome) (h : Walks rules rest (s.1, s.2 ++ [id]) s') :
      Walks rules (id :: rest) s s'
  | again {id : Nat} {rest : List Nat} {r : Rule} {s s' : Search} (hrule : rules[id]? = some r)
      (hpattern : r.pattern? = none) (hvisited : id ∈ s.1) (h : Walks rules rest s s') :
      Walks rules (id :: rest) s s'
  | list {id : Nat} {rest : List Nat} {r : Rule} {s mid s' : Search} (hrule : rules[id]? = some r)
      (hpattern : r.pattern? = none) (hnew : id ∉ s.1)
      (hinner : Walks rules r.inner (id :: s.1, s.2) mid) (h : Walks rules rest mid s') :
      Walks rules (id :: rest) s s'

namespace Walks

/-- There is one way to go through lists. -/
theorem unique (h : Walks rules ids s s') (h' : Walks rules ids s s'') : s'' = s' := by
  induction h generalizing s'' with
  | nil => cases h'; rfl
  | rule hrule hpattern _ ih =>
    cases h' with
    | rule _ _ h' => exact ih h'
    | again hrule' hlist _ _ | list hrule' hlist _ _ _ =>
      exact absurd hlist (not_list hrule hpattern hrule')
  | again hrule hlist hvisited _ ih =>
    cases h' with
    | rule hrule' hpattern _ => exact absurd hlist (not_list hrule' hpattern hrule)
    | again _ _ _ h' => exact ih h'
    | list _ _ hnew _ _ => exact absurd hvisited hnew
  | list hrule hlist hnew _ _ ihinner ih =>
    cases h' with
    | rule hrule' hpattern _ => exact absurd hlist (not_list hrule' hpattern hrule)
    | again _ _ hvisited _ => exact absurd hvisited hnew
    | list hrule' _ _ hinner' h' =>
      cases hrule.symm.trans hrule'
      cases ihinner hinner'
      exact ih h'

/-- No list is gone into twice. -/
theorem nodup (h : Walks rules ids s s') (hs : s.1.Nodup) : s'.1.Nodup := by
  induction h with
  | nil => exact hs
  | rule _ _ _ ih => exact ih hs
  | again _ _ _ _ ih => exact ih hs
  | list _ _ hnew _ _ ihinner ih => exact ih (ihinner (List.nodup_cons.mpr ⟨hnew, hs⟩))

/-- What is found, and what is gone into, is led to by a rule that leads to what is gone through. -/
theorem leads (h : Walks rules ids s s') (hids : ∀ id ∈ ids, Leads rules start id) :
    (∀ id ∈ s'.2, id ∈ s.2 ∨
      Leads rules start id ∧ ∃ r, rules[id]? = some r ∧ r.pattern?.isSome) ∧
    ∀ id ∈ s'.1, id ∈ s.1 ∨
      Leads rules start id ∧ ∃ r, rules[id]? = some r ∧ r.pattern? = none := by
  induction h with
  | nil => exact ⟨fun _ => Or.inl, fun _ => Or.inl⟩
  | @rule id rest r s s' hrule hpattern _ ih =>
    obtain ⟨hfound, hvisited⟩ := ih fun i hi => hids i (List.mem_cons_of_mem _ hi)
    refine ⟨fun i hi => ?_, hvisited⟩
    rcases hfound i hi with hi | hi
    · rcases List.mem_append.mp hi with hi | hi
      · exact Or.inl hi
      · rw [List.mem_singleton.mp hi]
        exact Or.inr ⟨hids id List.mem_cons_self, r, hrule, hpattern⟩
    · exact Or.inr hi
  | again _ _ _ _ ih => exact ih fun i hi => hids i (List.mem_cons_of_mem _ hi)
  | @list id rest r s mid s' hrule hpattern _ _ _ ihinner ih =>
    -- what stands in the list is led to by way of it
    have hlist : Leads rules start id := hids id List.mem_cons_self
    obtain ⟨hfound, hvisited⟩ := ihinner fun i hi => .through hlist hrule hpattern hi
    obtain ⟨hfound', hvisited'⟩ := ih fun i hi => hids i (List.mem_cons_of_mem _ hi)
    refine ⟨fun i hi => (hfound' i hi).elim (hfound i) Or.inr, fun i hi => ?_⟩
    rcases hvisited' i hi with hi | hi
    · rcases hvisited i hi with hi | hi
      · rcases List.mem_cons.mp hi with rfl | hi
        · exact Or.inr ⟨hlist, r, hrule, hpattern⟩
        · exact Or.inl hi
      · exact Or.inr hi
    · exact Or.inr hi

end Walks

/-- Following lists goes through them, in a table that no list leads out of. -/
theorem walks_follow
    (hclosed : ∀ (i : Nat) (r : Rule), rules[i]? = some r → ∀ j ∈ r.inner, j < rules.size)
    (fuel : Nat) {around ids : List Nat} {s : Search} (hids : ∀ id ∈ ids, id < rules.size)
    (hsettled : Settled rules around s) (hopen : around ⊆ s.1)
    (hfuel : rules.size < fuel + s.1.length) :
    Walks rules ids s (follow rules fuel ids s) := by
  -- on the depth that is left, and for each depth along the list
  induction fuel generalizing around ids s with
  | zero =>
    have hle := hsettled.length_le
    omega
  | succ fuel ih =>
    induction ids generalizing s with
    | nil => exact .nil
    | cons first ids ihids =>
      have hrest : ∀ id ∈ ids, id < rules.size := fun i hi => hids i (List.mem_cons_of_mem _ hi)
      obtain ⟨r, hr⟩ : ∃ r, rules[first]? = some r :=
        ⟨_, Array.getElem?_eq_getElem (hids first List.mem_cons_self)⟩
      rw [follow_cons, hr]
      dsimp only
      split
      next hpattern => exact .rule hr hpattern (ihids hrest (hsettled.find first) hopen hfuel)
      next hpattern =>
        have hlist : r.pattern? = none := by simpa using hpattern
        split
        next hvisited =>
          exact .again hr hlist (List.contains_iff_mem.mp hvisited)
            (ihids hrest hsettled hopen hfuel)
        next hvisited =>
          have hnew : first ∉ s.1 := fun hin => hvisited (List.contains_iff_mem.mpr hin)
          have hentered := hsettled.enter hnew (hids first List.mem_cons_self)
          have hopened := List.cons_subset_cons first hopen
          have hinner := ih (hclosed first r hr) hentered hopened (by rw [List.length_cons]; omega)
          obtain ⟨_, hfollows⟩ : ∃ inner, Follows rules (first :: around) r.inner
              (first :: s.1, s.2) (follow rules fuel r.inner (first :: s.1, s.2)) inner :=
            exists_follows fuel hentered hopened (by rw [List.length_cons]; omega)
          obtain ⟨hsettled', hopen', hlength⟩ := hfollows.after hr hsettled hopen
          exact .list hr hlist hnew hinner (ihids hrest hsettled' hopen' (by omega))

/-! ## What is found -/

/-- What a rule leads to has been dealt with when the rule's list has been followed. -/
theorem Follows.reached_of_leads {new : List (List Nat × Nat)}
    (h : Follows rules [start] rule.inner s s' new) (hrule : rules[start]? = some rule)
    (hleads : Leads rules start id) : Reached rules s' id := by
  induction hleads with
  | listed hrule' hid =>
    cases hrule.symm.trans hrule'
    exact h.reached _ hid
  | @through list id r _ hr hpattern hid ih =>
    by_cases hlist : list = start
    · -- back at the rule itself, whose list is the one that was followed
      subst hlist
      cases hrule.symm.trans hr
      exact h.reached id hid
    · have hvisited : list ∈ s'.1 := (if_neg (by simp [hpattern])).mp (ih r hr)
      exact h.settled.done list hvisited (by simpa using hlist) r hr id hid

/-- How many rules there are in the lists of some rules. -/
def innerCount (rules : Array Rule) (ids : List Nat) : Nat :=
  (ids.map fun id => (rules[id]?.map fun r => r.inner.length).getD 0).sum

private theorem innerCount_cons (hrule : rules[id]? = some rule) :
    innerCount rules (id :: ids) = rule.inner.length + innerCount rules ids := by
  rw [innerCount, List.map_cons, List.sum_cons, hrule]
  rfl

/-- Each rule that is found takes one number of a list that is gone through. -/
theorem Walks.length_found (h : Walks rules ids s s') :
    s'.2.length + innerCount rules s.1 ≤ s.2.length + ids.length + innerCount rules s'.1 := by
  induction h with
  | nil => simp
  | rule _ _ _ ih =>
    simp only [List.length_append, List.length_cons, List.length_nil] at ih ⊢
    omega
  | again _ _ _ _ ih =>
    rw [List.length_cons]
    omega
  | list hrule _ _ _ _ ihinner ih =>
    dsimp only at ihinner
    rw [innerCount_cons hrule] at ihinner
    rw [List.length_cons]
    omega

/-- Over all rules of a table, the lists hold as many places as their lengths add up to. -/
private theorem innerCount_range (rules : Array Rule) :
    innerCount rules (List.range rules.size) = (rules.toList.map fun r => r.inner.length).sum := by
  rw [innerCount]
  congr 1
  apply List.ext_getElem
  · rw [List.length_map, List.length_range, List.length_map, Array.length_toList]
  · intro i hi _
    rw [List.length_map, List.length_range] at hi
    rw [List.getElem_map, List.getElem_map, List.getElem_range, Array.getElem_toList,
      Array.getElem?_eq_getElem hi]
    rfl

/-- Different rules of the table have no more in their lists than all of them. -/
private theorem innerCount_le (hnodup : ids.Nodup) (hids : ∀ id ∈ ids, id < rules.size) :
    innerCount rules ids ≤ (rules.toList.map fun r => r.inner.length).sum := by
  have hsub : ids ⊆ List.range rules.size := fun i hi => List.mem_range.mpr (hids i hi)
  obtain ⟨more, hperm, hsublist⟩ := hnodup.subperm hsub
  rw [← innerCount_range, innerCount, ← (hperm.map _).sum_nat, innerCount]
  exact (hsublist.map _).sum_le_sum fun _ _ => Nat.zero_le _

/-! ## Answers that are kept -/

/-- What to look for inside a rule, from the answers that are kept, or else by following the rule's
lists; then the answer is kept. -/
def ask (rules : Array Rule) (kept : List (Nat × List Nat)) (id : Nat) :
    List Nat × List (Nat × List Nat) :=
  match kept.lookup id with
  | some found => (found, kept)
  | none => (candidatesOf rules id, (id, candidatesOf rules id) :: kept)

/-- The answers to questions that are asked one after the other. -/
def answers (rules : Array Rule) : List (Nat × List Nat) → List Nat → List (List Nat)
  | _, [] => []
  | kept, id :: ids => (ask rules kept id).1 :: answers rules (ask rules kept id).2 ids

/-- An answer that is kept is the one that following the lists gives. -/
theorem ask_of_kept {kept : List (Nat × List Nat)}
    (hkept : ∀ id found, kept.lookup id = some found → found = candidatesOf rules id) (id : Nat) :
    (ask rules kept id).1 = candidatesOf rules id ∧
      ∀ id' found, (ask rules kept id).2.lookup id' = some found →
        found = candidatesOf rules id' := by
  unfold ask
  split
  next found hfound => exact ⟨hkept id found hfound, hkept⟩
  next =>
    refine ⟨rfl, ?_⟩
    intro id' found hfound
    rw [List.lookup_cons] at hfound
    split at hfound
    next hid =>
      cases hfound
      rw [beq_iff_eq.mp hid]
    next => exact hkept id' found hfound

/-- Answers that are kept are the answers that would be found. -/
theorem answers_eq {kept : List (Nat × List Nat)}
    (hkept : ∀ id found, kept.lookup id = some found → found = candidatesOf rules id)
    (ids : List Nat) : answers rules kept ids = ids.map (candidatesOf rules) := by
  induction ids generalizing kept with
  | nil => rfl
  | cons id ids ih =>
    obtain ⟨hanswer, hkept'⟩ := ask_of_kept hkept id
    rw [answers, hanswer, ih hkept', List.map_cons]

/-! ## The candidates of a grammar -/

/-- A rule of a closed table leads to all rules with a pattern that are found, and no list that it
leads to is gone into twice. -/
theorem walks_candidatesOf
    (hclosed : ∀ (i : Nat) (r : Rule), rules[i]? = some r → ∀ j ∈ r.inner, j < rules.size)
    (hrule : rules[start]? = some rule) :
    ∃ visited, Walks rules rule.inner ([start], []) (visited, candidatesOf rules start) ∧
      visited.Nodup ∧
      (∀ i, i ∈ visited ↔
        i = start ∨ Leads rules start i ∧ ∃ r, rules[i]? = some r ∧ r.pattern? = none) ∧
      (∀ i, i ∈ candidatesOf rules start ↔
        Leads rules start i ∧ ∃ r, rules[i]? = some r ∧ r.pattern?.isSome) ∧
      (candidatesOf rules start).length ≤ (rules.toList.map fun r => r.inner.length).sum := by
  obtain ⟨_, hfollows⟩ := follows_start hrule
  -- the fuel is more than the lists that can be entered
  have hwalks := walks_follow hclosed (rules.size + 1) (hclosed start rule hrule)
    (settled_start hrule) (List.Subset.refl _) (by rw [List.length_singleton]; omega)
  have hfound : candidatesOf rules start =
      (follow rules (rules.size + 1) rule.inner ([start], [])).2 := by
    rw [candidatesOf, hrule]
  rw [hfound]
  generalize follow rules (rules.size + 1) rule.inner ([start], []) = s at hfollows hwalks
  have hnodup : s.1.Nodup := hwalks.nodup (List.nodup_singleton _)
  obtain ⟨hsound, hsound'⟩ := hwalks.leads fun i hi => .listed hrule hi
  have hreached : ∀ i, Leads rules start i → Reached rules s i :=
    fun i hleads => hfollows.reached_of_leads hrule hleads
  refine ⟨s.1, hwalks, hnodup, fun i => ⟨fun hi => ?_, ?_⟩, fun i => ⟨fun hi => ?_, ?_⟩, ?_⟩
  · exact (hsound' i hi).imp_left List.mem_singleton.mp
  · rintro (rfl | ⟨hleads, r, hr, hpattern⟩)
    · exact hfollows.visited (List.mem_singleton_self _)
    · exact (if_neg (by simp [hpattern])).mp (hreached i hleads r hr)
  · exact (hsound i hi).resolve_left List.not_mem_nil
  · rintro ⟨hleads, r, hr, hpattern⟩
    exact (if_pos hpattern).mp (hreached i hleads r hr)
  · -- each list is entered once, so that what is found was listed somewhere
    have hcount := hwalks.length_found
    have hall := innerCount_le hnodup hfollows.settled.inside
    rw [innerCount_cons hrule, List.length_nil] at hcount
    omega

/-- What is looked for inside a rule of a grammar is found by going through the rule's lists, which
ends and goes into each list once: all rules with a pattern to which the rule leads through mere
lists. The answers are the same when they are kept. -/
theorem candidates_complete {g : Grammar} {source : String} {raw : Json}
    (h : ofJson source raw = .ok g) :
    (∀ id rule, g.rules[id]? = some rule → ∃ visited found,
      g.candidates[id]? = some found ∧
      Walks g.rules rule.inner ([id], []) (visited, found) ∧
      (∀ s, Walks g.rules rule.inner ([id], []) s → s = (visited, found)) ∧
      visited.Nodup ∧
      (∀ i, i ∈ visited ↔
        i = id ∨ Leads g.rules id i ∧ ∃ r, g.rules[i]? = some r ∧ r.pattern? = none) ∧
      (∀ i, i ∈ found ↔ Leads g.rules id i ∧ ∃ r, g.rules[i]? = some r ∧ r.pattern?.isSome) ∧
      found.length ≤ (g.rules.toList.map fun r => r.inner.length).sum) ∧
    ∀ ids, (∀ id ∈ ids, id < g.rules.size) →
      answers g.rules [] ids = ids.map fun id => g.candidates.getD id [] := by
  obtain ⟨_, _, _, _, _, hshares⟩ := Build.exists_shares h
  refine ⟨fun id rule hrule => ?_, fun ids hids => ?_⟩
  · obtain ⟨visited, hwalks, hrest⟩ := walks_candidatesOf (fun _ _ => hshares.inner_lt) hrule
    have hid : id < g.rules.size := (Array.getElem?_eq_some_iff.mp hrule).1
    exact ⟨visited, candidatesOf g.rules id, getElem?_candidates h hid, hwalks,
      fun _ => hwalks.unique, hrest⟩
  · rw [answers_eq (by simp)]
    exact List.map_congr_left fun id hid => (getD_candidates h (hids id hid)).symm

/-- Two lists that hold each other, and one of them the grammar too. -/
def rounds : Json :=
  .obj [("scopeName", .str "s"),
    ("patterns", .arr [.obj [("include", .str "#a")], .obj [("include", .str "#b")]]),
    ("repository", .obj [
      ("a", .obj [("patterns", .arr [.obj [("include", .str "#b")], .obj [("match", .str "x")]])]),
      ("b", .obj [("patterns", .arr [.obj [("include", .str "#a")],
        .obj [("include", .str "$self")], .obj [("match", .str "y")]])])])]

/-- Both rules are found from each of the lists, and again when the answers are kept. -/
theorem rounds_candidates :
    ∃ g, ofJson anonymous rounds = .ok g ∧
      g.candidates.toList = [[3, 4], [3, 4], [4, 3], [], []] ∧
      (∀ i, i ∈ [4, 3] ↔ Leads g.rules 2 i ∧ ∃ r, g.rules[i]? = some r ∧ r.pattern?.isSome) ∧
      answers g.rules [] [2, 0, 2] = [[4, 3], [3, 4], [4, 3]] := by
  have hrun : (ofJson anonymous rounds).toOption.map
      (fun g => (g.rules.size, g.candidates.toList)) =
        some (5, [[3, 4], [3, 4], [4, 3], [], []]) := by
    decide +kernel
  cases hg : ofJson anonymous rounds with
  | error f => rw [hg] at hrun; cases hrun
  | ok g =>
    rw [hg] at hrun
    obtain ⟨hsize, hcandidates⟩ := Prod.mk.inj (Option.some.inj hrun)
    obtain ⟨hfound, hanswers⟩ := candidates_complete hg
    obtain ⟨rule, hrule⟩ : ∃ rule, g.rules[2]? = some rule :=
      ⟨_, Array.getElem?_eq_getElem (by omega)⟩
    obtain ⟨_, found, hkept, _, _, _, _, hleads, _⟩ := hfound 2 rule hrule
    rw [← Array.getElem?_toList, hcandidates] at hkept
    cases hkept
    have hasked := hanswers [2, 0, 2] (by simp [hsize])
    simp only [Array.getD_eq_getD_getElem?, ← Array.getElem?_toList, hcandidates] at hasked
    exact ⟨g, rfl, hcandidates, hleads, hasked⟩

end Grammar

end Conceal
