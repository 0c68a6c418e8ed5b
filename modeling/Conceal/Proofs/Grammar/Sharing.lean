import Conceal.Proofs.Grammar.Circular
import Conceal.Proofs.Grammar.Flattening
import Conceal.Proofs.Grammar.Spots

/-!
The table of a grammar. It has one rule for each spot of the description that the grammar needs, at
the place that the rule names, and the lists of its rules hold the places of what is listed at their
spots; so an entry of the repository that is a rule has one place, wherever it is included. While
the table is filled a rule has its place before its list is read, and the list is completed
afterwards: what is read in between adds rules of its own and leaves those before it alone. Main
statement: `table_shared`.
-/

namespace Conceal

namespace Grammar

namespace Build

/-- The place of a spot in a table; where there is no spot there is no place. -/
abbrev AtPlace (spots : List Spot) : Option Spot → Option Nat → Prop :=
  Option.Rel fun s id => spots[id]? = some s

/-- The list of a rule, read from number `n` on: each rule in it has the place of the spot that it
denotes, and rules that denote none are left out. -/
inductive Listed (entries : Json.Members) (spots : List Spot) (s : Spot) :
    Nat → List Json → List Nat → Prop
  | nil {n : Nat} : Listed entries spots s n [] []
  | cons {n : Nat} {value : Json} {target : Option Spot} {id : Option Nat} {rest : List Json}
      {ids : List Nat} (hdenotes : Denotes entries (s.item n) value target)
      (hplace : AtPlace spots target id) (hrest : Listed entries spots s (n + 1) rest ids) :
      Listed entries spots s n (value :: rest) (id.toList ++ ids)

/-- A rule with nothing in its list is what a description says; the root says nothing but its list.
-/
def MadeFrom (source : String) (s : Spot) (members : Json.Members) (r : Rule) : Prop :=
  if s = .root then r = { id := r.id } else ∀ t, (ruleOf source r.id members).run t = .ok (r, t)

/-- The rule at a place is the one that is written at the place's spot. -/
def Fits (source : String) (members entries : Json.Members) (spots : List Spot) (id : Nat)
    (r : Rule) : Prop :=
  r.id = id ∧ ∃ s rule, spots[id]? = some s ∧ s.written? members entries = some (.obj rule) ∧
    MadeFrom source s rule { r with inner := [] } ∧ Listed entries spots s 0 (rulesIn rule) r.inner

/-- The spots that the rules of a table are of, while it is being filled: each is needed and has one
place, and the places of entries are those of what they denote. -/
structure Tracked (members entries : Json.Members) (spots : List Spot) (t : Table) : Prop where
  size : spots.length = t.rules.size
  nodup : spots.Nodup
  root : spots[0]? = some .root
  top : ∀ s ∈ spots, s.top ∈ spots
  needed : ∀ s ∈ spots, Needed members entries s
  known : ∀ named ∈ t.places, ∃ value s, entries.get? named.1 = some value ∧
    Denotes entries (.ofEntry named.1) value (some s) ∧ spots[named.2]? = some s
  noted : ∀ key, Spot.ofEntry key ∈ spots → key ∈ t.places.map Prod.fst

/-- What reading a part of a grammar adds to a table. No rule that was there is touched, and those
that are added are complete; their spots lie in a region, or in entries that had no place before. -/
structure Grown (source : String) (members entries : Json.Members) (region : Spot → Prop)
    (spots : List Spot) (t : Table) (more : List Spot) (t' : Table) : Prop where
  tracked : Tracked members entries (spots ++ more) t'
  kept : ∀ i < t.rules.size, t'.rules[i]? = t.rules[i]?
  fits : ∀ i r, t.rules.size ≤ i → t'.rules[i]? = some r →
    Fits source members entries (spots ++ more) i r
  fresh : ∀ s ∈ more, region s ∨ s.top ∉ spots

variable {source : String} {members entries rule : Json.Members} {spots more more' : List Spot}
  {s : Spot} {n id : Nat} {t t' t'' : Table} {value : Json} {rules : List Json} {ids : List Nat}
  {region region' : Spot → Prop}

/-! ## Tables that grow -/

private theorem getElem?_append_of_some (h : spots[id]? = some s) (more : List Spot) :
    (spots ++ more)[id]? = some s :=
  (List.getElem?_append_left (List.getElem?_eq_some_iff.mp h).1).trans h

/-- A spot keeps its place while spots are added. -/
theorem AtPlace.mono {target : Option Spot} {place : Option Nat} (h : AtPlace spots target place)
    (more : List Spot) : AtPlace (spots ++ more) target place := by
  cases h with
  | none => exact .none
  | some h => exact .some (getElem?_append_of_some h more)

theorem Listed.mono (h : Listed entries spots s n rules ids) (more : List Spot) :
    Listed entries (spots ++ more) s n rules ids := by
  induction h with
  | nil => exact .nil
  | cons hdenotes hplace _ ih => exact .cons hdenotes (hplace.mono more) ih

/-- A rule that fits does so while spots are added. -/
theorem Fits.mono {r : Rule} (h : Fits source members entries spots id r) (more : List Spot) :
    Fits source members entries (spots ++ more) id r := by
  obtain ⟨hid, s, rule, hspot, hwritten, hmade, hlisted⟩ := h
  exact ⟨hid, s, rule, getElem?_append_of_some hspot more, hwritten, hmade, hlisted.mono more⟩

/-- Only the number of the rules and the places of entries are kept track of. -/
theorem Tracked.of_eq (h : Tracked members entries spots t) (hsize : t'.rules.size = t.rules.size)
    (hplaces : t'.places = t.places) : Tracked members entries spots t' where
  size := h.size.trans hsize.symm
  nodup := h.nodup
  root := h.root
  top := h.top
  needed := h.needed
  known := by
    rw [hplaces]
    exact h.known
  noted := by
    rw [hplaces]
    exact h.noted

namespace Grown

/-- Where nothing is read the table stays. -/
theorem refl (h : Tracked members entries spots t) :
    Grown source members entries region spots t [] t where
  tracked := by rwa [List.append_nil]
  kept _ _ := rfl
  fits i r hle hr := absurd (Array.getElem?_eq_some_iff.mp hr).1 (Nat.not_lt.mpr hle)
  fresh := by simp

/-- The spots that are added lie in any larger region. -/
theorem mono (h : Grown source members entries region spots t more t')
    (hregion : ∀ s, region s → region' s) :
    Grown source members entries region' spots t more t' where
  tracked := h.tracked
  kept := h.kept
  fits := h.fits
  fresh s hs := (h.fresh s hs).imp_left (hregion s)

/-- What is added twice is added, the earlier spots first. -/
theorem trans (h : Grown source members entries region spots t more t')
    (h' : Grown source members entries region (spots ++ more) t' more' t'') :
    Grown source members entries region spots t (more ++ more') t'' where
  tracked := by
    rw [← List.append_assoc]
    exact h'.tracked
  kept i hi := by
    have hi' : i < t'.rules.size := by
      have hrule := h.kept i hi
      rw [Array.getElem?_eq_getElem hi] at hrule
      exact (Array.getElem?_eq_some_iff.mp hrule).1
    exact (h'.kept i hi').trans (h.kept i hi)
  fits i r hle hr := by
    rw [← List.append_assoc]
    by_cases hi : i < t'.rules.size
    · rw [h'.kept i hi] at hr
      exact (h.fits i r hle hr).mono more'
    · exact h'.fits i r (Nat.not_lt.mp hi) hr
  fresh s hs := by
    rcases List.mem_append.mp hs with hs | hs
    · exact h.fresh s hs
    · exact (h'.fresh s hs).imp_right fun hnew hold => hnew (List.mem_append_left _ hold)

end Grown

/-! ## Taking and filling places -/

theorem run_bind_eq_ok {α β : Type} {act : Build α} {next : α → Build β} {b : β} :
    (act >>= next).run t = .ok (b, t'') ↔
      ∃ a t', act.run t = .ok (a, t') ∧ (next a).run t' = .ok (b, t'') := by
  rw [StateT.run_bind, bind_eq_ok, Prod.exists]

/-- A rule that has its place is read with nothing changed, and has nothing in its list yet. -/
def Stateless {α : Type} (act : Build α) (good : α → Prop) : Prop :=
  ∀ t a t', act.run t = .ok (a, t') → t' = t ∧ (∀ u, act.run u = .ok (a, u)) ∧ good a

theorem stateless_pure {α : Type} {good : α → Prop} {a : α} (h : good a) :
    Stateless (pure a) good := by
  intro t b t' hrun
  cases hrun
  exact ⟨rfl, fun _ => rfl, h⟩

theorem stateless_throw {α : Type} {good : α → Prop} (fault : Fault) :
    Stateless (throw fault : Build α) good := by
  intro t a t' hrun
  cases hrun

/-- Two readers without a state make one. -/
theorem Stateless.bind {α β : Type} {act : Build α} {next : α → Build β} {good : α → Prop}
    {good' : β → Prop} (h : Stateless act good) (hnext : ∀ a, Stateless (next a) good') :
    Stateless (act >>= next) good' := by
  intro t b t'' hrun
  obtain ⟨a, t', hact, hrest⟩ := run_bind_eq_ok.mp hrun
  obtain ⟨rfl, hall, _⟩ := h t a t' hact
  obtain ⟨rfl, hall', hgood⟩ := hnext a t' b t'' hrest
  exact ⟨rfl, fun u => (run_bind_of_ok (hall u)).trans (hall' u), hgood⟩

/-- Reading a pattern changes no table. -/
theorem stateless_pattern (what : String) (value : Json) :
    Stateless (pattern source what value) fun _ => True := by
  unfold pattern
  split
  · split
    · exact stateless_pure trivial
    · exact stateless_throw _
  · exact stateless_throw _

/-- A rule has one kind of pattern at most, and what begins has an end. -/
structure Shaped (r : Rule) : Prop where
  one : r.matching = none ∨ r.beginning = none
  ending : r.beginning.isSome → r.endSource.isSome

/-- Reading what is a rule's own changes no table, and its list is empty then. -/
theorem stateless_ruleOf (id : Nat) (rule : Json.Members) :
    Stateless (ruleOf source id rule) fun r => r.id = id ∧ r.inner = [] ∧ Shaped r := by
  unfold ruleOf
  dsimp only
  split
  · exact (stateless_pattern _ _).bind fun _ => stateless_pure ⟨rfl, rfl, Or.inr rfl, by simp⟩
  · refine (stateless_pattern _ _).bind fun _ => ?_
    split
    · exact (stateless_pattern _ _).bind fun _ =>
        stateless_pure ⟨rfl, rfl, Or.inl rfl, fun _ => rfl⟩
    · exact stateless_throw _
  · exact stateless_pure ⟨rfl, rfl, Or.inl rfl, by simp⟩

/-- A rule that fits has one kind of pattern at most. -/
theorem Fits.shaped {r : Rule} (h : Fits source members entries spots id r) : Shaped r := by
  obtain ⟨_, s, rule, _, _, hmade, _⟩ := h
  unfold MadeFrom at hmade
  split at hmade
  · have hmatching : r.matching = none := congrArg Rule.matching hmade
    have hbeginning : r.beginning = none := congrArg Rule.beginning hmade
    exact ⟨Or.inl hmatching, by simp [hbeginning]⟩
  · obtain ⟨_, _, _, _, hshaped⟩ := stateless_ruleOf _ rule {} _ _ (hmade {})
    exact ⟨hshaped.one, hshaped.ending⟩

/-- A rule of which all has been read fits its place. -/
theorem fits_of_read {found : Rule} {inner : List Nat} (hspot : spots[id]? = some s)
    (hroot : s ≠ .root) (hwritten : s.written? members entries = some (.obj rule))
    (hfound : (ruleOf source id rule).run t = .ok (found, t'))
    (hlisted : Listed entries spots s 0 (rulesIn rule) inner) :
    Fits source members entries spots id { found with inner } := by
  obtain ⟨_, hmade, hid, hempty, _⟩ := stateless_ruleOf id rule t found t' hfound
  obtain ⟨id', matching, beginning, name, contentName, endSource, captures, beginCaptures,
    endCaptures, inner'⟩ := found
  cases hid
  cases hempty
  refine ⟨rfl, s, rule, hspot, hwritten, ?_, hlisted⟩
  rw [MadeFrom, if_neg hroot]
  exact hmade

theorem top_mem (htop : s.way ≠ [] → s.top ∈ spots) : s.top ∈ spots ++ [s] := by
  by_cases hway : s.way = []
  · exact List.mem_append_right _ (by simp [Spot.top, ← hway])
  · exact List.mem_append_left _ (htop hway)

/-- A spot that is needed and has no place gets the next one. -/
theorem Tracked.takePlace (h : Tracked members entries spots t) (hnew : s ∉ spots)
    (htop : s.way ≠ [] → s.top ∈ spots) (hneeded : Needed members entries s)
    (hwritten : s.written? members entries = some (.obj rule))
    (hown : rule.get? "include" = none) :
    ∃ t', (Build.takePlace s.key?).run t = .ok (t.rules.size, t') ∧
      t'.rules = t.rules.push { id := t.rules.size } ∧
      Tracked members entries (spots ++ [s]) t' := by
  refine ⟨_, rfl, rfl, ?_⟩
  have hspot : (spots ++ [s])[t.rules.size]? = some s := by
    rw [← h.size]
    exact List.getElem?_concat_length
  constructor
  · simp [h.size]
  · rw [← List.concat_eq_append]
    exact h.nodup.concat hnew
  · exact getElem?_append_of_some h.root _
  · intro s' hs'
    rcases List.mem_append.mp hs' with hs' | hs'
    · exact List.mem_append_left _ (h.top s' hs')
    · rw [List.mem_singleton.mp hs']
      exact top_mem htop
  · intro s' hs'
    rcases List.mem_append.mp hs' with hs' | hs'
    · exact h.needed s' hs'
    · rw [List.mem_singleton.mp hs']
      exact hneeded
  · have hold : ∀ named ∈ t.places, ∃ value s', entries.get? named.1 = some value ∧
        Denotes entries (.ofEntry named.1) value (some s') ∧
          (spots ++ [s])[named.2]? = some s' := by
      intro named hnamed
      obtain ⟨value, s', hentry, hdenotes, hplace⟩ := h.known named hnamed
      exact ⟨value, s', hentry, hdenotes, getElem?_append_of_some hplace _⟩
    cases hkey : s.key? with
    | none => exact hold
    | some key =>
      -- the entry itself, which denotes the spot that it is written at
      obtain rfl := Spot.eq_ofEntry_of_key? hkey
      exact List.forall_mem_cons.mpr ⟨⟨_, _, hwritten, .own hown, hspot⟩, hold⟩
  · intro key hkey
    rcases List.mem_append.mp hkey with hold | hkey
    · have hin := h.noted key hold
      cases s.key? with
      | none => exact hin
      | some _ => exact List.mem_cons_of_mem _ hin
    · rw [← List.mem_singleton.mp hkey]
      exact List.mem_cons_self

/-- A place of a table is filled, and nothing else is changed. -/
structure Filled (r : Rule) (t t' : Table) : Prop where
  places : t'.places = t.places
  size : t'.rules.size = t.rules.size
  self : ∀ r', t'.rules[r.id]? = some r' → r' = r
  other : ∀ i ≠ r.id, t'.rules[i]? = t.rules[i]?

/-- Filling a place changes that place alone. -/
theorem filled_of_run {r : Rule} (h : (fill r).run t = .ok ((), t')) : Filled r t t' := by
  cases h
  refine ⟨rfl, Array.size_setIfInBounds, ?_, ?_⟩
  · intro r' hr'
    have hin := (Array.getElem?_eq_some_iff.mp hr').1
    rw [Array.size_setIfInBounds] at hin
    exact Option.some.inj (hr'.symm.trans (Array.getElem?_setIfInBounds_self_of_lt hin))
  · intro i hi
    exact Array.getElem?_setIfInBounds_ne hi.symm

/-! ## Reading rules -/

/-- The spots of a list, from number `n` on. -/
def BelowFrom (s : Spot) (n : Nat) (s' : Spot) : Prop := ∃ k, n ≤ k ∧ (s.item k).Below s'

/-- A rule takes its place, its list is read, and the place is filled: so the rule is added with all
that its list has added. -/
theorem Grown.filled {r taken : Rule} {t₁ t₂ : Table} (htaken : t₁.rules = t.rules.push taken)
    (h : Grown source members entries (BelowFrom s 0) (spots ++ [s]) t₁ more t₂)
    (hfilled : Filled r t₂ t') (hid : r.id = t.rules.size)
    (hfits : Fits source members entries (spots ++ ([s] ++ more)) t.rules.size r) :
    Grown source members entries s.Below spots t ([s] ++ more) t' := by
  have hsize : t₁.rules.size = t.rules.size + 1 := by rw [htaken, Array.size_push]
  constructor
  · rw [← List.append_assoc]
    exact h.tracked.of_eq hfilled.size hfilled.places
  · intro i hi
    rw [hfilled.other i (by omega), h.kept i (by omega), htaken, Array.getElem?_push_lt hi,
      Array.getElem?_eq_getElem hi]
  · intro i r' hle hr'
    -- the rule itself has the first place that is new, and its list added all others
    by_cases hi : i = t.rules.size
    · rw [hi, ← hid] at hr'
      rw [hi, hfilled.self r' hr']
      exact hfits
    · rw [hfilled.other i (by omega)] at hr'
      rw [← List.append_assoc]
      exact h.fits i r' (by omega) hr'
  · intro s' hs'
    rcases List.mem_append.mp hs' with hs' | hs'
    · rw [List.mem_singleton.mp hs']
      exact Or.inl (.refl s)
    · rcases h.fresh s' hs' with ⟨k, _, hbelow⟩ | hnew
      · exact Or.inl hbelow.of_item
      · exact Or.inr fun hold => hnew (List.mem_append_left _ hold)

/-- A rule can be read: it is written at a spot that none of those with a place lies below, and what
it denotes is needed. -/
structure RuleReady (members entries : Json.Members) (spots : List Spot) (s : Spot) (value : Json) :
    Prop where
  written : s.written? members entries = some value
  needed : ∀ target, Denotes entries s value (some target) → Needed members entries target
  top : s.way ≠ [] → s.top ∈ spots
  free : ∀ s' ∈ spots, ¬ s.Below s'

/-- The rules of a list can be read one by one. -/
structure ListReady (members entries : Json.Members) (spots : List Spot) (s : Spot) (n : Nat)
    (rules : List Json) : Prop where
  written : ∀ j value, rules[j]? = some value →
    (s.item (n + j)).written? members entries = some value
  needed : ∀ j value target, rules[j]? = some value →
    Denotes entries (s.item (n + j)) value (some target) → Needed members entries target
  top : s.top ∈ spots
  free : ∀ s' ∈ spots, ¬ BelowFrom s n s'

/-- When a rule that is needed has its place its list can be read. -/
theorem listReady_inner (hneeded : Needed members entries s)
    (hwritten : s.written? members entries = some (.obj rule))
    (htop : s.way ≠ [] → s.top ∈ spots) (hfree : ∀ s' ∈ spots, ¬ s.Below s') :
    ListReady members entries (spots ++ [s]) s 0 (rulesIn rule) where
  written j value hvalue := by rw [Nat.zero_add, written?_item hwritten, hvalue]
  needed j value target hvalue hdenotes := by
    rw [Nat.zero_add] at hdenotes
    exact .listed hneeded hwritten hvalue hdenotes
  top := top_mem htop
  free := by
    rintro s' hs' ⟨k, _, hbelow⟩
    rcases List.mem_append.mp hs' with hs' | hs'
    · exact hfree s' hs' hbelow.of_item
    · rw [List.mem_singleton.mp hs'] at hbelow
      exact Spot.not_below_item s k hbelow

/-- The first rule of a list that is ready is ready. -/
theorem ListReady.head {rest : List Json}
    (h : ListReady members entries spots s n (value :: rest)) :
    RuleReady members entries spots (s.item n) value where
  written := h.written 0 value rfl
  needed target := h.needed 0 value target rfl
  top _ := h.top
  free s' hs' hbelow := h.free s' hs' ⟨n, Nat.le_refl n, hbelow⟩

/-- When the first rule of a list has been read the rest can be read. -/
theorem ListReady.tail {rest : List Json}
    (h : ListReady members entries spots s n (value :: rest))
    (hgrown : Grown source members entries (s.item n).Below spots t more t') :
    ListReady members entries (spots ++ more) s (n + 1) rest where
  written j value hvalue := by
    rw [Nat.add_right_comm]
    exact h.written (j + 1) value hvalue
  needed j value target hvalue hdenotes := by
    rw [Nat.add_right_comm] at hdenotes
    exact h.needed (j + 1) value target hvalue hdenotes
  top := List.mem_append_left _ h.top
  free := by
    rintro s' hs' ⟨k, hk, hbelow⟩
    rcases List.mem_append.mp hs' with hs' | hs'
    · exact h.free s' hs' ⟨k, by omega, hbelow⟩
    · -- below the first rule, or in an entry that had no place
      rcases hgrown.fresh s' hs' with hfirst | hnew
      · have hnk := hfirst.item_unique hbelow
        omega
      · exact hnew (hbelow.top_eq ▸ h.top)

/-- Reading an entry gives the place of what it denotes. -/
def ReadsEntry (source : String) (members entries : Json.Members)
    (reading : String → Build (Option Nat)) : Prop :=
  ∀ key spots t place t', (reading key).run t = .ok (place, t') →
    Tracked members entries spots t →
    (∀ value target, entries.get? key = some value →
      Denotes entries (.ofEntry key) value (some target) → Needed members entries target) →
    ∃ more value target, Grown source members entries (fun _ => False) spots t more t' ∧
      entries.get? key = some value ∧ Denotes entries (.ofEntry key) value target ∧
      AtPlace (spots ++ more) target place

/-- Reading a rule gives the place of what it denotes. -/
def ReadsRule (source : String) (members entries : Json.Members) (act : Build (Option Nat))
    (s : Spot) (value : Json) : Prop :=
  ∀ spots t place t', act.run t = .ok (place, t') → Tracked members entries spots t →
    RuleReady members entries spots s value →
    ∃ more target, Grown source members entries s.Below spots t more t' ∧
      Denotes entries s value target ∧ AtPlace (spots ++ more) target place

/-- Reading a list of rules gives the places of what they denote. -/
def ReadsList (source : String) (members entries : Json.Members) (act : Build (List Nat))
    (s : Spot) (n : Nat) (rules : List Json) : Prop :=
  ∀ spots t ids t', act.run t = .ok (ids, t') → Tracked members entries spots t →
    ListReady members entries spots s n rules →
    ∃ more, Grown source members entries (BelowFrom s n) spots t more t' ∧
      Listed entries (spots ++ more) s n rules ids

section parts

variable {reading : String → Build (Option Nat)} {reference : Json}

/-- A rule with an include is read as what it denotes, if entries are. -/
theorem readsRule_included (hreading : ReadsEntry source members entries reading)
    (hinclude : rule.get? "include" = some reference) :
    ReadsRule source members entries (included source reading reference) s (.obj rule) := by
  intro spots t place t' hrun htracked hready
  cases hkey : keyOf? reference with
  | some key =>
    rw [included_of_key hkey] at hrun
    obtain ⟨more, value, target, hgrown, hentry, hdenotes, hplace⟩ :=
      hreading key spots t place t' hrun htracked fun value target hentry hdenotes =>
        hready.needed target (.entry hinclude hkey hentry hdenotes)
    exact ⟨more, target, hgrown.mono fun _ => False.elim, .entry hinclude hkey hentry hdenotes,
      hplace⟩
  | none =>
    cases reference with
    | str text =>
      by_cases htext : text = ""
      · subst htext
        cases hrun
      · rw [included_of_text htext hkey] at hrun
        cases hrun
        split
        next hself =>
          refine ⟨[], some .root, .refl htracked, .root hinclude hself, ?_⟩
          rw [List.append_nil]
          exact .some htracked.root
        next hother => exact ⟨[], none, .refl htracked, .outside hinclude hother hkey, .none⟩
    | _ => cases hrun

/-- A rule with something of its own takes its place, its list is read, and the place is filled. -/
theorem readsRule_own (hown : rule.get? "include" = none)
    (hinner : ReadsList source members entries (innerOf source reading rule) s 0 (rulesIn rule)) :
    ReadsRule source members entries (Build.rule source reading s.key? (.obj rule)) s
      (.obj rule) := by
  intro spots t place t' hrun htracked hready
  have hnew : s ∉ spots := fun hin => hready.free s hin (.refl s)
  have hroot : s ≠ .root := by
    rintro rfl
    exact hnew (List.mem_of_getElem? htracked.root)
  have hneeded : Needed members entries s := hready.needed s (.own hown)
  obtain ⟨t₁, htake, hrules, htracked₁⟩ :=
    htracked.takePlace hnew hready.top hneeded hready.written hown
  rw [rule_of_own hown, run_bind_of_ok htake] at hrun
  obtain ⟨found, u, hfound, hrest⟩ := run_bind_eq_ok.mp hrun
  -- what it says of itself is read without a change to the table
  obtain ⟨rfl, _, hid, _⟩ := stateless_ruleOf _ _ _ _ _ hfound
  obtain ⟨inner, t₂, hlist, hrest⟩ := run_bind_eq_ok.mp hrest
  obtain ⟨more, hgrown, hlisted⟩ := hinner _ _ _ _ hlist htracked₁
    (listReady_inner hneeded hready.written hready.top hready.free)
  obtain ⟨_, t₃, hfill, hrest⟩ := run_bind_eq_ok.mp hrest
  cases hrest
  rw [List.append_assoc] at hlisted
  have hspot : (spots ++ ([s] ++ more))[t.rules.size]? = some s := by
    rw [← htracked.size, ← List.append_assoc]
    exact getElem?_append_of_some List.getElem?_concat_length more
  have hfits := fits_of_read hspot hroot hready.written hfound hlisted
  exact ⟨[s] ++ more, some s, hgrown.filled hrules (filled_of_run hfill) hid hfits, .own hown,
    .some hspot⟩

/-- An empty list is read as no rule. -/
theorem readsList_nil : ReadsList source members entries (pure []) s n [] := by
  intro spots t ids t' hrun htracked _
  cases hrun
  exact ⟨[], .refl htracked, .nil⟩

/-- A list that is refused is not read. -/
theorem readsList_refuse {cause : GrammarFault} :
    ReadsList source members entries (refuse source cause) s n rules := by
  intro spots t ids t' hrun
  cases hrun

/-- A list is read as its first rule and the rest. -/
theorem readsList_cons {act : Build (Option Nat)} {rest : List Json} {next : Build (List Nat)}
    (hrule : ReadsRule source members entries act (s.item n) value)
    (hrest : ReadsList source members entries next s (n + 1) rest) :
    ReadsList source members entries (do return (← act).toList ++ (← next)) s n
      (value :: rest) := by
  intro spots t ids t' hrun htracked hready
  obtain ⟨id, t₁, hact, hrun⟩ := run_bind_eq_ok.mp hrun
  obtain ⟨more, target, hgrown, hdenotes, hplace⟩ := hrule _ _ _ _ hact htracked hready.head
  obtain ⟨ids', t₂, hnext, hrun⟩ := run_bind_eq_ok.mp hrun
  obtain ⟨more', hgrown', hlisted⟩ := hrest _ _ _ _ hnext hgrown.tracked (hready.tail hgrown)
  cases hrun
  have hfirst := hgrown.mono fun s' (hbelow : (s.item n).Below s') =>
    (⟨n, Nat.le_refl n, hbelow⟩ : BelowFrom s n s')
  have hlater := hgrown'.mono fun s' ⟨k, hk, hbelow⟩ =>
    (⟨k, Nat.le_of_succ_le hk, hbelow⟩ : BelowFrom s n s')
  refine ⟨more ++ more', hfirst.trans hlater, ?_⟩
  rw [← List.append_assoc]
  exact .cons hdenotes (hplace.mono more') hlisted

-- one case for each shape of a description, as in the readers themselves
mutual

/-- A rule is read as what it denotes, if entries are. -/
theorem reads_rule (hreading : ReadsEntry source members entries reading) :
    ∀ (value : Json) (s : Spot),
      ReadsRule source members entries (Build.rule source reading s.key? value) s value
  | .obj rule, s => by
    cases hinclude : Json.Members.get? rule "include" with
    | some reference =>
      rw [rule_of_link hinclude]
      exact readsRule_included hreading hinclude
    | none => exact readsRule_own hinclude (reads_innerOf hreading rule s)
  | .null, _ | .bool _, _ | .int _, _ | .float _, _ | .arr _, _ | .str _, _ => by
    intro spots t place t' hrun
    unfold Build.rule at hrun
    cases hrun

/-- So are the rules in a description. -/
theorem reads_innerOf (hreading : ReadsEntry source members entries reading) :
    ∀ (rule : List (String × Json)) (s : Spot),
      ReadsList source members entries (innerOf source reading rule) s 0 (rulesIn rule)
  | [], _ => by unfold innerOf; exact readsList_nil
  | (key, value) :: rest, s => by
    rw [rulesIn_cons]
    unfold innerOf
    split
    · exact reads_listed hreading value s
    · exact reads_innerOf hreading rest s

/-- So is a list. -/
theorem reads_listed (hreading : ReadsEntry source members entries reading) :
    ∀ (value : Json) (s : Spot),
      ReadsList source members entries (listed source reading value) s 0 (rulesOf value)
  | .null, _ => by unfold listed; exact readsList_nil
  | .arr rules, s => by unfold listed; exact reads_each hreading rules s 0
  | .obj _, _ | .bool _, _ | .int _, _ | .float _, _ | .str _, _ => by
    unfold listed; exact readsList_refuse

/-- So are rules one after the other. -/
theorem reads_each (hreading : ReadsEntry source members entries reading) :
    ∀ (rules : List Json) (s : Spot) (n : Nat),
      ReadsList source members entries (each source reading rules) s n rules
  | [], _, _ => by unfold each; exact readsList_nil
  | rule :: rest, s, n => by
    unfold each
    exact readsList_cons (reads_rule hreading rule (s.item n)) (reads_each hreading rest s (n + 1))

end

end parts

/-! ## Reading entries -/

theorem note_rules (t : Table) (key : String) (place : Option Nat) :
    (note t key place).rules = t.rules := by
  cases place <;> rfl

/-- An entry may be noted with the place of what it denotes. -/
theorem Tracked.note {key : String} {target : Option Spot} {place : Option Nat}
    (h : Tracked members entries spots t) (hentry : entries.get? key = some value)
    (hdenotes : Denotes entries (.ofEntry key) value target) (hplace : AtPlace spots target place) :
    Tracked members entries spots (Build.note t key place) := by
  cases hplace with
  | none => exact h
  | some hspot =>
    exact ⟨h.size, h.nodup, h.root, h.top, h.needed,
      List.forall_mem_cons.mpr ⟨⟨value, _, hentry, hdenotes, hspot⟩, h.known⟩,
      fun key' hkey' => List.mem_cons_of_mem _ (h.noted key' hkey')⟩

/-- An entry that has no place yet can be read. -/
theorem Tracked.ready {key : String} (h : Tracked members entries spots t)
    (hplace : t.places.lookup key = none) (hentry : entries.get? key = some value)
    (hneeded : ∀ target, Denotes entries (.ofEntry key) value (some target) →
      Needed members entries target) : RuleReady members entries spots (.ofEntry key) value where
  written := hentry
  needed := hneeded
  top hway := absurd rfl hway
  free s' hs' hbelow := by
    have htop := h.top s' hs'
    rw [hbelow.top_eq] at htop
    have hsome := isSome_lookup.mpr (h.noted key htop)
    rw [hplace] at hsome
    cases hsome

/-- When an entry has been read that had no place, all that was added is new. -/
theorem Grown.note {key : String} {target : Option Spot} {place : Option Nat}
    (h : Grown source members entries (Spot.ofEntry key).Below spots t more t')
    (hentry : entries.get? key = some value)
    (hdenotes : Denotes entries (.ofEntry key) value target)
    (hplace : AtPlace (spots ++ more) target place) (hnew : Spot.ofEntry key ∉ spots) :
    Grown source members entries (fun _ => False) spots t more (Build.note t' key place) := by
  constructor
  · exact h.tracked.note hentry hdenotes hplace
  · rw [note_rules]
    exact h.kept
  · rw [note_rules]
    exact h.fits
  · intro s hs
    rcases h.fresh s hs with hbelow | hfresh
    · exact Or.inr (hbelow.top_eq ▸ hnew)
    · exact Or.inr hfresh

/-- What an entry comes to has a place when the entry has been read, and it has one place only. -/
theorem readsEntry_entry (hops : Nat) (around : List String) :
    ReadsEntry source members entries (entry source entries hops around) := by
  -- on the steps that are left, which the entries read inside this one have one less of
  induction hops generalizing around with
  | zero =>
    intro key spots t place t' hrun
    cases hrun
  | succ hops ih =>
    intro key spots t place t' hrun htracked hneeded
    cases hplace : t.places.lookup key with
    | some id =>
      rw [entry_of_place hplace] at hrun
      cases hrun
      obtain ⟨value, s, hentry, hdenotes, hspot⟩ :=
        htracked.known (key, id) (mem_of_lookup hplace)
      refine ⟨[], value, some s, .refl htracked, hentry, hdenotes, ?_⟩
      rw [List.append_nil]
      exact .some hspot
    | none =>
      cases hentry : entries.get? key with
      | none =>
        rw [entry_of_unknown hplace hentry] at hrun
        cases hrun
      | some value =>
        by_cases haround : key ∈ around
        · rw [entry_of_around hplace hentry haround] at hrun
          cases hrun
        · rw [entry_of_new hplace hentry haround] at hrun
          obtain ⟨⟨id, t₁⟩, hrule, hrest⟩ := bind_eq_ok.mp hrun
          cases hrest
          have hready := htracked.ready hplace hentry fun target => hneeded value target hentry
          obtain ⟨more, target, hgrown, hdenotes, hplace'⟩ :=
            reads_rule (ih (key :: around)) value (.ofEntry key) _ _ _ _ hrule htracked hready
          have hnew : Spot.ofEntry key ∉ spots := fun hin => hready.free _ hin (.refl _)
          exact ⟨more, value, target, hgrown.note hentry hdenotes hplace' hnew, rfl, hdenotes,
            hplace'⟩

/-! ## The table -/

/-- The root has the first place. -/
theorem tracked_root : Tracked members entries [.root] { rules := #[{ id := 0 }] } where
  size := rfl
  nodup := List.nodup_singleton _
  root := rfl
  top s hs := by
    rw [List.mem_singleton.mp hs]
    exact List.mem_singleton_self _
  needed s hs := by
    rw [List.mem_singleton.mp hs]
    exact .root
  known := by simp
  noted key hkey := by
    rw [List.mem_singleton] at hkey
    cases hkey

/-- All rules of the table are read, and each has one place. -/
theorem table_tracked {rules : Array Rule} (hrepository : repository source members = .ok entries)
    (htable : table source members = .ok rules) :
    ∃ spots t, t.rules = rules ∧ Tracked members entries spots t ∧
      ∀ i r, rules[i]? = some r → Fits source members entries spots i r := by
  obtain ⟨_, hentries, htable⟩ := bind_eq_ok.mp htable
  cases hrepository.symm.trans hentries
  obtain ⟨⟨_, t⟩, hread, hrest⟩ := bind_eq_ok.mp htable
  cases hrest
  obtain ⟨_, _, htake, hread⟩ := run_bind_eq_ok.mp hread
  cases htake
  obtain ⟨inner, t₁, hlist, hread⟩ := run_bind_eq_ok.mp hread
  have hready : ListReady members entries ([] ++ [.root]) .root 0 (rulesIn members) :=
    listReady_inner .root rfl (absurd rfl) fun _ hs => absurd hs List.not_mem_nil
  obtain ⟨more, hgrown, hlisted⟩ :=
    reads_innerOf (readsEntry_entry _ _) members .root _ _ _ _ hlist tracked_root hready
  have hfits : Fits source members entries ([] ++ ([.root] ++ more)) 0 { id := 0, inner } :=
    ⟨rfl, .root, members, rfl, rfl, by rw [MadeFrom, if_pos rfl], hlisted⟩
  have hall : Grown source members entries Spot.root.Below [] {} ([.root] ++ more) t :=
    hgrown.filled rfl (filled_of_run hread) rfl hfits
  exact ⟨_, t, rfl, hall.tracked, fun i r => hall.fits i r (Nat.zero_le i)⟩

/-- The rules of a list are in the table. -/
theorem Listed.lt (h : Listed entries spots s n rules ids) : ∀ id ∈ ids, id < spots.length := by
  induction h with
  | nil => simp
  | cons _ hplace _ ih =>
    intro id hid
    rcases List.mem_append.mp hid with hid | hid
    · cases hplace with
      | none => cases hid
      | some hspot =>
        cases List.mem_singleton.mp hid
        exact (List.getElem?_eq_some_iff.mp hspot).1
    · exact ih id hid

/-- What a rule of a list denotes has a place. -/
theorem Listed.exists_place (h : Listed entries spots s n rules ids) {j : Nat} {target : Spot}
    (hvalue : rules[j]? = some value)
    (hdenotes : Denotes entries (s.item (n + j)) value (some target)) :
    target ∈ spots := by
  induction h generalizing j with
  | nil => cases hvalue
  | cons hfirst hplace _ ih =>
    cases j with
    | zero =>
      cases hvalue
      cases hfirst.unique hdenotes
      cases hplace with
      | some hspot => exact List.mem_of_getElem? hspot
    | succ j =>
      rw [← Nat.add_assoc, Nat.add_right_comm] at hdenotes
      exact ih hvalue hdenotes

/-- The rules of a table are those at the spots that a description needs, one rule for each. -/
structure Shares (source : String) (members entries : Json.Members) (spots : List Spot)
    (rules : Array Rule) : Prop where
  size : spots.length = rules.size
  nodup : spots.Nodup
  needed : ∀ s, s ∈ spots ↔ Needed members entries s
  fits : ∀ i r, rules[i]? = some r → Fits source members entries spots i r

/-- What is needed is read: where a rule fits its place, what is listed there has places too. -/
theorem Tracked.shares (h : Tracked members entries spots t)
    (hfits : ∀ i r, t.rules[i]? = some r → Fits source members entries spots i r) :
    Shares source members entries spots t.rules where
  size := h.size
  nodup := h.nodup
  needed s := by
    refine ⟨h.needed s, fun hneeded => ?_⟩
    induction hneeded with
    | root => exact List.mem_of_getElem? h.root
    | listed _ hwritten hvalue hdenotes ih =>
      obtain ⟨i, hspot⟩ := List.mem_iff_getElem?.mp ih
      have hi : i < t.rules.size := h.size ▸ (List.getElem?_eq_some_iff.mp hspot).1
      obtain ⟨_, s', rule', hspot', hwritten', _, hlisted⟩ :=
        hfits i _ (Array.getElem?_eq_getElem hi)
      cases hspot.symm.trans hspot'
      cases hwritten.symm.trans hwritten'
      exact hlisted.exists_place hvalue (by rwa [Nat.zero_add])
  fits := hfits

namespace Shares

variable {table : Array Rule} {r : Rule}

/-- Lists hold places of the table only. -/
theorem inner_lt (h : Shares source members entries spots table) (hr : table[id]? = some r) :
    ∀ id ∈ r.inner, id < table.size := by
  obtain ⟨_, _, _, _, _, _, hlisted⟩ := h.fits id r hr
  intro id hid
  rw [← h.size]
  exact hlisted.lt id hid

/-- No way through the lists of a table leads out of it. -/
theorem leads_lt (h : Shares source members entries spots table) {start : Nat}
    (hleads : Leads table start id) : id < table.size := by
  cases hleads with
  | listed hr hid => exact h.inner_lt hr id hid
  | through _ hr _ hid => exact h.inner_lt hr id hid

end Shares

/-- Every grammar that is read shares its rules. -/
theorem exists_shares {g : Grammar} {raw : Json} (h : ofJson source raw = .ok g) :
    ∃ members entries spots, Describes raw members ∧ repository source members = .ok entries ∧
      Shares source members entries spots g.rules := by
  obtain ⟨members, scopeName, name, rules, hraw, htable, rfl⟩ := exists_table h
  obtain ⟨entries, hrepository, _⟩ := bind_eq_ok.mp htable
  obtain ⟨spots, t, rfl, htracked, hfits⟩ := table_tracked hrepository htable
  exact ⟨members, entries, spots, hraw, hrepository, htracked.shares hfits⟩

/-- The table of a grammar is closed, and has one rule for each spot that its description needs. So
an entry of the repository that is a rule has one place at most, and all includes that come to it,
at once, from inside it or through other entries, lead to this place. -/
theorem table_shared {g : Grammar} {raw : Json} (h : ofJson source raw = .ok g) :
    ∃ members entries spots, Describes raw members ∧ repository source members = .ok entries ∧
      Shares source members entries spots g.rules ∧
      (∀ i r, g.rules[i]? = some r →
        r.id = i ∧ Shaped r ∧ ∀ id ∈ r.inner, id < g.rules.size) ∧
      ∀ i j, Leads g.rules i j → j < g.rules.size := by
  obtain ⟨members, entries, spots, hraw, hrepository, hshares⟩ := exists_shares h
  refine ⟨members, entries, spots, hraw, hrepository, hshares, ?_, fun _ _ => hshares.leads_lt⟩
  intro i r hr
  have hfit := hshares.fits i r hr
  exact ⟨hfit.1, hfit.shaped, hshares.inner_lt hr⟩

/-- A list that is included under two names, also in itself, has one place. -/
theorem nested_shared :
    ∃ g, ofJson anonymous (.obj (nested "#b" "#a")) = .ok g ∧
      g.rules.toList.map (·.inner) = [[1, 1], [1, 2], []] ∧
      (∃ members entries spots, Describes (.obj (nested "#b" "#a")) members ∧
        repository anonymous members = .ok entries ∧
        Shares anonymous members entries spots g.rules) ∧
      ∀ i j, Leads g.rules i j → j < g.rules.size := by
  have hrun : (ofJson anonymous (.obj (nested "#b" "#a"))).toOption.map
      (fun g => g.rules.toList.map (·.inner)) = some [[1, 1], [1, 2], []] := by
    decide +kernel
  cases hg : ofJson anonymous (.obj (nested "#b" "#a")) with
  | error f => rw [hg] at hrun; cases hrun
  | ok g =>
    rw [hg] at hrun
    obtain ⟨members, entries, spots, hraw, hrepository, hshares, _, hleads⟩ := table_shared hg
    exact ⟨g, rfl, Option.some.inj hrun, ⟨members, entries, spots, hraw, hrepository, hshares⟩,
      hleads⟩

end Build

end Grammar

end Conceal
