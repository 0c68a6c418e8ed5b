import Conceal.Grammar.Basic
import Mathlib.Data.List.Lex
import Mathlib.Data.List.Nodup
import Mathlib.Data.List.Perm.Subperm

/-!
Lists of rules that hold lists of rules. A rule with a pattern stands at places in them, and a place
is the way to it, one number for each list. Following the lists finds every rule that stands
somewhere, in the order of the places: a list that is not followed again has nothing to add, as all
rules in it were found before, at earlier places. Main statement: `follows_candidatesOf`.
-/

namespace Conceal

namespace Grammar

variable {rules : Array Rule} {around ids place place' found : List Nat} {id : Nat} {rule : Rule}

/-! ## Places -/

/-- A rule with a pattern stands at a place in a list of rules. The way to it leads through mere
lists and never into one of those around it, so that there are finitely many places. -/
inductive Stands (rules : Array Rule) : List Nat → List Nat → List Nat → Nat → Prop
  | here {around rest : List Nat} {id : Nat} {rule : Rule} (hrule : rules[id]? = some rule)
      (hpattern : rule.pattern?.isSome) : Stands rules around (id :: rest) [0] id
  | inside {around rest place : List Nat} {list id : Nat} {rule : Rule}
      (hrule : rules[list]? = some rule) (hpattern : rule.pattern? = none)
      (hopen : list ∉ around) (h : Stands rules (list :: around) rule.inner place id) :
      Stands rules around (list :: rest) (0 :: place) id
  | later {around rest place : List Nat} {first n id : Nat}
      (h : Stands rules around rest (n :: place) id) :
      Stands rules around (first :: rest) ((n + 1) :: place) id

/-- A place has one number at least. -/
theorem Stands.exists_cons (h : Stands rules around ids place id) :
    ∃ n rest, place = n :: rest := by
  cases h <;> exact ⟨_, _, rfl⟩

/-- A rule leads to the rules in its list, and to those in a mere list that it leads to. -/
inductive Leads (rules : Array Rule) (start : Nat) : Nat → Prop
  | listed {id : Nat} {rule : Rule} (hrule : rules[start]? = some rule) (hid : id ∈ rule.inner) :
      Leads rules start id
  | through {list id : Nat} {rule : Rule} (h : Leads rules start list)
      (hrule : rules[list]? = some rule) (hpattern : rule.pattern? = none)
      (hid : id ∈ rule.inner) : Leads rules start id

/-- A rule with a pattern is no mere list. -/
theorem not_list {r : Rule} (hrule : rules[id]? = some rule) (hpattern : rule.pattern?.isSome)
    (hr : rules[id]? = some r) : r.pattern? ≠ none := by
  cases hrule.symm.trans hr
  exact Option.isSome_iff_ne_none.mp hpattern

/-- Only one rule stands at a place. -/
theorem Stands.unique {id' : Nat} (h : Stands rules around ids place id)
    (h' : Stands rules around ids place id') : id = id' := by
  induction h with
  | here hrule hpattern =>
    cases h' with
    | here => rfl
    | inside _ _ _ h' => obtain ⟨_, _, ⟨⟩⟩ := h'.exists_cons
  | inside hrule hpattern _ h ih =>
    cases h' with
    | here => obtain ⟨_, _, ⟨⟩⟩ := h.exists_cons
    | inside hrule' _ _ h' =>
      cases hrule.symm.trans hrule'
      exact ih h'
  | later _ ih =>
    cases h' with
    | later h' => exact ih h'

/-- The same place in a list that has one more rule in front. -/
def nextPlace : List Nat → List Nat
  | [] => []
  | n :: rest => (n + 1) :: rest

/-- A list that is one rule longer at the front has all places one further. -/
theorem Stands.next {first : Nat} (h : Stands rules around ids place id) :
    Stands rules around (first :: ids) (nextPlace place) id := by
  obtain ⟨n, rest, rfl⟩ := h.exists_cons
  exact .later h

/-- Places one further are in the same order. -/
private theorem nextPlace_lt (h : place < place') : nextPlace place < nextPlace place' := by
  cases place with
  | nil =>
    cases place' with
    | nil => exact absurd h (lt_irrefl _)
    | cons n' rest' => exact List.nil_lt_cons _ _
  | cons n rest =>
    cases place' with
    | nil => exact absurd h (List.not_lt_nil _)
    | cons n' rest' =>
      rw [List.cons_lt_cons_iff] at h
      exact List.cons_lt_cons_iff.mpr (h.imp Nat.succ_lt_succ (And.imp_left (congrArg _)))

private theorem nextPlace_le (h : place ≤ place') : nextPlace place ≤ nextPlace place' := by
  rcases lt_or_eq_of_le h with h | rfl
  · exact le_of_lt (nextPlace_lt h)
  · exact le_refl _

/-- What stands in the first rule of a list stands before all the rest. -/
private theorem zero_cons_lt_nextPlace (h : Stands rules around ids place' id) :
    0 :: place < nextPlace place' := by
  obtain ⟨n, rest, rfl⟩ := h.exists_cons
  exact List.cons_lt_cons_iff.mpr (Or.inl (Nat.succ_pos n))

private theorem zero_cons_lt (h : place < place') : 0 :: place < 0 :: place' :=
  List.cons_lt_cons_iff.mpr (Or.inr ⟨rfl, h⟩)

private theorem zero_cons_le (h : place ≤ place') : 0 :: place ≤ 0 :: place' := by
  rcases lt_or_eq_of_le h with h | rfl
  · exact le_of_lt (zero_cons_lt h)
  · exact le_refl _

/-! ## What following lists has found -/

/-- What has been visited, and what was found. -/
abbrev Search := List Nat × List Nat

/-- A rule of a list is dealt with: it was found, or its own list was visited. -/
def Reached (rules : Array Rule) (s : Search) (id : Nat) : Prop :=
  ∀ rule, rules[id]? = some rule → if rule.pattern?.isSome then id ∈ s.2 else id ∈ s.1

/-- All lists that were visited are done with, but for those that are being followed. -/
structure Settled (rules : Array Rule) (around : List Nat) (s : Search) : Prop where
  nodup : s.1.Nodup
  inside : ∀ id ∈ s.1, id < rules.size
  done : ∀ id ∈ s.1, id ∉ around → ∀ rule, rules[id]? = some rule →
    ∀ child ∈ rule.inner, Reached rules s child

/-- What was reached stays reached. -/
theorem Reached.mono {s s' : Search} (h : Reached rules s id) (hvisited : s.1 ⊆ s'.1)
    (hfound : s.2 ⊆ s'.2) : Reached rules s' id := by
  intro rule hrule
  have hid := h rule hrule
  split at hid
  next hpattern => exact (if_pos hpattern).mpr (hfound hid)
  next hpattern => exact (if_neg hpattern).mpr (hvisited hid)

/-- No more lists are visited than there are rules. -/
theorem Settled.length_le {s : Search} (h : Settled rules around s) : s.1.length ≤ rules.size := by
  have hsub : s.1 ⊆ List.range rules.size := fun id hid => List.mem_range.mpr (h.inside id hid)
  simpa using (h.nodup.subperm hsub).length_le

/-- A rule that is found does not unsettle anything. -/
theorem Settled.find {s : Search} (h : Settled rules around s) (id : Nat) :
    Settled rules around (s.1, s.2 ++ [id]) :=
  ⟨h.nodup, h.inside, fun list hlist hopen r hr child hchild =>
    (h.done list hlist hopen r hr child hchild).mono (List.Subset.refl _)
      (List.subset_append_left _ _)⟩

/-- A list that is entered is visited, and is not done with yet. -/
theorem Settled.enter {s : Search} {list : Nat} (h : Settled rules around s) (hnew : list ∉ s.1)
    (hlist : list < rules.size) : Settled rules (list :: around) (list :: s.1, s.2) := by
  refine ⟨List.nodup_cons.mpr ⟨hnew, h.nodup⟩, ?_, ?_⟩
  · intro id hid
    rcases List.mem_cons.mp hid with rfl | hid
    · exact hlist
    · exact h.inside id hid
  · intro id hid hopen r hr child hchild
    rw [List.mem_cons, not_or] at hopen
    have hold := (List.mem_cons.mp hid).resolve_left hopen.1
    exact (h.done id hold hopen.2 r hr child hchild).mono (List.subset_cons_self _ _)
      (List.Subset.refl _)

/-- A list that has been followed is done with. -/
theorem Settled.leave {s : Search} {list : Nat} (h : Settled rules (list :: around) s)
    (hrule : rules[list]? = some rule) (hinner : ∀ id ∈ rule.inner, Reached rules s id) :
    Settled rules around s := by
  refine ⟨h.nodup, h.inside, ?_⟩
  intro id hid hopen r hr
  by_cases hlist : id = list
  · subst hlist
    cases hrule.symm.trans hr
    exact hinner
  · exact h.done id hid (by simp [hlist, hopen]) r hr

/-- What stands in lists that are done with has been found. -/
theorem Settled.mem_found {s : Search} {around' : List Nat} (h : Settled rules around s)
    (hsub : around ⊆ around') (hids : ∀ id ∈ ids, Reached rules s id)
    (hstands : Stands rules around' ids place id) : id ∈ s.2 := by
  induction hstands with
  | here hrule hpattern => exact (if_pos hpattern).mp (hids _ List.mem_cons_self _ hrule)
  | @inside around' rest place list id rule hrule hpattern hopen _ ih =>
    have hlist : list ∈ s.1 := by
      refine (if_neg ?_).mp (hids list List.mem_cons_self _ hrule)
      simp [hpattern]
    exact ih (List.Subset.trans hsub (List.subset_cons_self _ _))
      (h.done list hlist (fun hin => hopen (hsub hin)) _ hrule)
  | later _ ih => exact ih hsub fun id hid => hids id (List.mem_cons_of_mem _ hid)

/-- What following a list adds to a search: the rules `new`, with places where they stand. They come
in the order of their places, and every place of a rule comes after one where it was found. -/
structure Follows (rules : Array Rule) (around ids : List Nat) (s s' : Search)
    (new : List (List Nat × Nat)) : Prop where
  found : s'.2 = s.2 ++ new.map Prod.snd
  visited : s.1 ⊆ s'.1
  settled : Settled rules around s'
  reached : ∀ id ∈ ids, Reached rules s' id
  stands : ∀ e ∈ new, Stands rules around ids e.1 e.2
  sorted : new.Pairwise fun e e' => e.1 < e'.1
  first : ∀ place id, Stands rules around ids place id →
    id ∈ s.2 ∨ ∃ e ∈ new, e.2 = id ∧ e.1 ≤ place

namespace Follows

variable {s s' s'' : Search} {new : List (List Nat × Nat)}

/-- Where nothing is to be followed nothing is found. -/
theorem nil (h : Settled rules around s) : Follows rules around [] s s [] where
  found := (List.append_nil _).symm
  visited := List.Subset.refl _
  settled := h
  reached := by simp
  stands := by simp
  sorted := .nil
  first := by
    intro place id hstands
    cases hstands

/-- What was found stays found. -/
theorem found_subset (h : Follows rules around ids s s' new) : s.2 ⊆ s'.2 := by
  rw [h.found]
  exact List.subset_append_left _ _

/-- The first rule of a list gives the rules `inner`, and then the rest is followed. -/
theorem cons {first : Nat} (mid : Search) (inner : List (List Nat × Nat))
    (hvisited : s.1 ⊆ mid.1) (hfound : mid.2 = s.2 ++ inner.map Prod.snd)
    (hreached : Reached rules mid first)
    (hstands : ∀ e ∈ inner, Stands rules around (first :: ids) e.1 e.2)
    (hhead : ∀ e ∈ inner, ∃ rest, e.1 = 0 :: rest)
    (hsorted : inner.Pairwise fun e e' => e.1 < e'.1)
    (hfirst : ∀ place id, Stands rules around (first :: ids) (0 :: place) id →
      id ∈ s.2 ∨ ∃ e ∈ inner, e.2 = id ∧ e.1 ≤ 0 :: place)
    (hrest : Follows rules around ids mid s' new) :
    Follows rules around (first :: ids) s s'
      (inner ++ new.map fun e => (nextPlace e.1, e.2)) where
  found := by
    rw [hrest.found, hfound, List.map_append, List.map_map, List.append_assoc]
    rfl
  visited := List.Subset.trans hvisited hrest.visited
  settled := hrest.settled
  reached := by
    intro id hid
    rcases List.mem_cons.mp hid with rfl | hid
    · exact hreached.mono hrest.visited hrest.found_subset
    · exact hrest.reached id hid
  stands := by
    intro e he
    rcases List.mem_append.mp he with he | he
    · exact hstands e he
    · obtain ⟨e', he', rfl⟩ := List.mem_map.mp he
      exact (hrest.stands e' he').next
  sorted := by
    -- places in the first rule come before those in the rest
    rw [List.pairwise_append]
    refine ⟨hsorted, List.pairwise_map.mpr (hrest.sorted.imp nextPlace_lt), ?_⟩
    intro e he e' he'
    obtain ⟨rest, hplace⟩ := hhead e he
    obtain ⟨e₀, he₀, rfl⟩ := List.mem_map.mp he'
    rw [hplace]
    exact zero_cons_lt_nextPlace (hrest.stands e₀ he₀)
  first := by
    intro place id h
    -- the place tells whether the rule stands in the first one or later
    obtain ⟨n, rest, rfl⟩ := h.exists_cons
    cases n with
    | zero =>
      rcases hfirst rest id h with hold | ⟨e, he, hid, hle⟩
      · exact Or.inl hold
      · exact Or.inr ⟨e, List.mem_append_left _ he, hid, hle⟩
    | succ n =>
      cases h with
      | later h =>
        rcases hrest.first _ _ h with hold | ⟨e, he, hid, hle⟩
        · -- found before the rest was followed: in the search, or in the first rule
          rw [hfound] at hold
          rcases List.mem_append.mp hold with hold | hold
          · exact Or.inl hold
          · obtain ⟨e, he, rfl⟩ := List.mem_map.mp hold
            obtain ⟨rest', hplace⟩ := hhead e he
            refine Or.inr ⟨e, List.mem_append_left _ he, rfl, ?_⟩
            rw [hplace]
            exact le_of_lt (List.cons_lt_cons_iff.mpr (Or.inl (Nat.succ_pos n)))
        · refine Or.inr ⟨_, List.mem_append_right _ (List.mem_map_of_mem he), hid, ?_⟩
          exact nextPlace_le hle

/-- A number of no rule is passed over. -/
theorem ofMissing {first : Nat} (hr : rules[first]? = none)
    (hrest : Follows rules around ids s s' new) :
    Follows rules around (first :: ids) s s' (new.map fun e => (nextPlace e.1, e.2)) := by
  refine cons s [] (List.Subset.refl _) (by simp) ?_ (by simp) (by simp) .nil ?_ hrest
  · intro r hr'
    cases hr.symm.trans hr'
  · intro place id hstands
    cases hstands with
    | here hr' _ => cases hr.symm.trans hr'
    | inside hr' _ _ _ => cases hr.symm.trans hr'

/-- A rule with a pattern is found where it is. -/
theorem ofRule {first : Nat} {r : Rule} (hr : rules[first]? = some r) (hpattern : r.pattern?.isSome)
    (hrest : Follows rules around ids (s.1, s.2 ++ [first]) s' new) :
    Follows rules around (first :: ids) s s'
      (([0], first) :: new.map fun e => (nextPlace e.1, e.2)) := by
  refine cons (s.1, s.2 ++ [first]) [([0], first)] (List.Subset.refl _) rfl ?_ ?_ ?_
    (List.pairwise_singleton _ _) ?_ hrest
  · intro r' hr'
    cases hr.symm.trans hr'
    rw [if_pos hpattern]
    exact List.mem_append_right _ (List.mem_singleton_self _)
  · intro e he
    rw [List.mem_singleton.mp he]
    exact .here hr hpattern
  · intro e he
    rw [List.mem_singleton.mp he]
    exact ⟨[], rfl⟩
  · intro place id hstands
    cases hstands with
    | here => exact Or.inr ⟨_, List.mem_singleton_self _, rfl, le_refl _⟩
    | inside hr' hnone _ _ => exact absurd hnone (not_list hr hpattern hr')

/-- A list that was visited gives nothing new: it is done with, or it is around. -/
theorem ofVisited {first : Nat} {r : Rule} (hr : rules[first]? = some r) (hlist : r.pattern? = none)
    (hsettled : Settled rules around s) (hvisited : first ∈ s.1)
    (hrest : Follows rules around ids s s' new) :
    Follows rules around (first :: ids) s s' (new.map fun e => (nextPlace e.1, e.2)) := by
  refine cons s [] (List.Subset.refl _) (by simp) ?_ (by simp) (by simp) .nil ?_ hrest
  · intro r' hr'
    cases hr.symm.trans hr'
    rw [if_neg (by simp [hlist])]
    exact hvisited
  · intro place id hstands
    cases hstands with
    | here hr' hpattern => exact absurd hlist (not_list hr' hpattern hr)
    | inside hr' _ hopen h =>
      cases hr.symm.trans hr'
      exact Or.inl (hsettled.mem_found (List.subset_cons_self _ _)
        (hsettled.done first hvisited hopen _ hr) h)

/-- A list that has not been visited is followed in its place. -/
theorem ofList {first : Nat} {r : Rule} {mid : Search} {inner : List (List Nat × Nat)}
    (hr : rules[first]? = some r) (hlist : r.pattern? = none)
    (hopen : first ∉ around)
    (hinner : Follows rules (first :: around) r.inner (first :: s.1, s.2) mid inner)
    (hrest : Follows rules around ids mid s' new) :
    Follows rules around (first :: ids) s s'
      (inner.map (fun e => (0 :: e.1, e.2)) ++ new.map fun e => (nextPlace e.1, e.2)) := by
  have hvisited := hinner.visited (List.mem_cons_self (a := first) (l := s.1))
  refine cons mid (inner.map fun e => (0 :: e.1, e.2))
    (List.Subset.trans (List.subset_cons_self _ _) hinner.visited) ?_ ?_ ?_ ?_ ?_ ?_ hrest
  · rw [hinner.found, List.map_map]
    rfl
  · intro r' hr'
    cases hr.symm.trans hr'
    rw [if_neg (by simp [hlist])]
    exact hvisited
  · intro e he
    obtain ⟨e₀, he₀, rfl⟩ := List.mem_map.mp he
    exact .inside hr hlist hopen (hinner.stands e₀ he₀)
  · intro e he
    obtain ⟨e₀, _, rfl⟩ := List.mem_map.mp he
    exact ⟨_, rfl⟩
  · exact List.pairwise_map.mpr (hinner.sorted.imp zero_cons_lt)
  · intro place id hstands
    -- the first rule is a list, so that nothing stands there but what is inside
    cases hstands with
    | here hr' hpattern => exact absurd hlist (not_list hr' hpattern hr)
    | inside hr' _ _ h =>
      cases hr.symm.trans hr'
      rcases hinner.first _ _ h with hold | ⟨e, he, hid, hle⟩
      · exact Or.inl hold
      · exact Or.inr ⟨_, List.mem_map_of_mem he, hid, zero_cons_le hle⟩

/-- When a list has been followed in its place the rest can be: the list is done with, and nothing
that was visited is forgotten. -/
theorem after {first : Nat} {r : Rule} {mid : Search} (hr : rules[first]? = some r)
    (hinner : Follows rules (first :: around) r.inner (first :: s.1, s.2) mid new)
    (hsettled : Settled rules around s) (hopen : around ⊆ s.1) :
    Settled rules around mid ∧ around ⊆ mid.1 ∧ s.1.length ≤ mid.1.length := by
  have hgrown : s.1 ⊆ mid.1 := List.Subset.trans (List.subset_cons_self first s.1) hinner.visited
  exact ⟨hinner.settled.leave hr hinner.reached, List.Subset.trans hopen hgrown,
    (hsettled.nodup.subperm hgrown).length_le⟩

end Follows

/-! ## Following lists -/

theorem follow_cons (fuel first : Nat) (s : Search) :
    follow rules (fuel + 1) (first :: ids) s = follow rules (fuel + 1) ids
      (match rules[first]? with
        | none => s
        | some r =>
          if r.pattern?.isSome then (s.1, s.2 ++ [first])
          else if s.1.contains first then s
          else follow rules fuel r.inner (first :: s.1, s.2)) := rfl

/-- Lists are followed to their ends: with each list that is entered there is one more that was
visited, and there are no more than rules. -/
theorem exists_follows (fuel : Nat) {around ids : List Nat} {s : Search}
    (hsettled : Settled rules around s) (hopen : around ⊆ s.1)
    (hfuel : rules.size < fuel + s.1.length) :
    ∃ new, Follows rules around ids s (follow rules fuel ids s) new := by
  -- on the depth that is left, and for each depth along the list
  induction fuel generalizing around ids s with
  | zero =>
    have hle := hsettled.length_le
    omega
  | succ fuel ih =>
    induction ids generalizing s with
    | nil => exact ⟨[], .nil hsettled⟩
    | cons first ids ihids =>
      rw [follow_cons]
      split
      next hr =>
        obtain ⟨new, hrest⟩ := ihids hsettled hopen hfuel
        exact ⟨_, .ofMissing hr hrest⟩
      next r hr =>
        split
        next hpattern =>
          obtain ⟨new, hrest⟩ := ihids (hsettled.find first) hopen hfuel
          exact ⟨_, .ofRule hr hpattern hrest⟩
        next hpattern =>
          have hlist : r.pattern? = none := by simpa using hpattern
          split
          next hvisited =>
            obtain ⟨new, hrest⟩ := ihids hsettled hopen hfuel
            exact ⟨_, .ofVisited hr hlist hsettled (List.contains_iff_mem.mp hvisited) hrest⟩
          next hvisited =>
            have hnew : first ∉ s.1 := fun hin => hvisited (List.contains_iff_mem.mpr hin)
            have hsize : first < rules.size := (Array.getElem?_eq_some_iff.mp hr).1
            obtain ⟨inner, hinner⟩ : ∃ inner, Follows rules (first :: around) r.inner
                (first :: s.1, s.2) (follow rules fuel r.inner (first :: s.1, s.2)) inner :=
              ih (hsettled.enter hnew hsize) (List.cons_subset_cons _ hopen)
                (by rw [List.length_cons]; omega)
            -- no less was visited than before, so the depth that is left is still enough
            obtain ⟨hsettled', hopen', hlength⟩ := hinner.after hr hsettled hopen
            obtain ⟨new, hrest⟩ := ihids hsettled' hopen' (by omega)
            exact ⟨_, .ofList hr hlist (fun hin => hnew (hopen hin)) hinner hrest⟩

/-- At first only the rule itself was visited, and its list is being followed. -/
theorem settled_start (hrule : rules[id]? = some rule) : Settled rules [id] ([id], []) where
  nodup := List.nodup_singleton _
  inside i hi := by
    rw [List.mem_singleton.mp hi]
    exact (Array.getElem?_eq_some_iff.mp hrule).1
  done _ hi hopen := absurd hi hopen

/-- From the list of a rule on, following finds rules in the order of their places. -/
theorem follows_start (hrule : rules[id]? = some rule) :
    ∃ new, Follows rules [id] rule.inner ([id], [])
      (follow rules (rules.size + 1) rule.inner ([id], [])) new :=
  exists_follows _ (settled_start hrule) (List.Subset.refl _)
    (by rw [List.length_singleton]; omega)

/-- The rules to look for inside a rule are those that stand somewhere in its list, in the order of
the first places where they do. -/
theorem follows_candidatesOf (hrule : rules[id]? = some rule) :
    ∃ new : List (List Nat × Nat), candidatesOf rules id = new.map Prod.snd ∧
      (∀ e ∈ new, Stands rules [id] rule.inner e.1 e.2) ∧
      (new.Pairwise fun e e' => e.1 < e'.1) ∧
      ∀ place i, Stands rules [id] rule.inner place i → ∃ e ∈ new, e.2 = i ∧ e.1 ≤ place := by
  obtain ⟨new, h⟩ := follows_start hrule
  refine ⟨new, ?_, h.stands, h.sorted, ?_⟩
  · rw [candidatesOf, hrule]
    exact h.found.trans (List.nil_append _)
  · intro place i hstands
    exact (h.first place i hstands).resolve_left (List.not_mem_nil)

end Grammar

end Conceal
