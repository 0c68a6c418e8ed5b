import Conceal.Proofs.Grammar.Trail
import Conceal.Proofs.Json.Keys

/-!
Reading a grammar meets the items of its description one by one, those of an entry of the repository
where it is first referred to, and fails where an item stops it. An entry that is a rule has its
place before its parts are read, so that it can be led back to; a link has none until what it
includes has been read. Main statement: `table_trail`.
-/

namespace Conceal

namespace Grammar

open Relation (TransGen ReflTransGen)

namespace Build

variable {entries : Json.Members} {around seen seen' : List String} {todo more : List Item}
  {key next : String} {members : List (String × Json)} {reference : Json} {t t' : Table}

/-! ## The places of entries -/

/-- The entries that have a place are those that were discovered, but for links that are being read
and for those that lead out of the grammar. -/
def Noted (entries : Json.Members) (around seen : List String) (t : Table) : Prop :=
  ∀ key, (t.places.lookup key).isSome ↔
    key ∈ seen ∧ ¬ (key ∈ around ∧ IsLink entries key) ∧ ¬ LeadsOut entries key

/-- In the beginning no entry has a place. -/
theorem noted_empty (entries : Json.Members) (t : Table) (ht : t.places = []) :
    Noted entries [] [] t := by
  intro key
  simp [ht]

/-- A link has no place while what it stands for is read. -/
theorem Noted.enterLink (h : Noted entries around seen t) (hnew : key ∉ seen)
    (hlink : IsLink entries key) : Noted entries (key :: around) (seen ++ [key]) t := by
  intro k
  rw [h k]
  by_cases hk : k = key
  · subst hk
    simp [hnew, hlink]
  · simp [hk]

/-- A rule of the repository has its place before its parts are read. -/
theorem Noted.enterRule (h : Noted entries around seen t) (hrule : ¬ IsLink entries key) {id : Nat}
    (hplaces : t'.places = (key, id) :: t.places) :
    Noted entries (key :: around) (seen ++ [key]) t' := by
  intro k
  rw [hplaces, List.lookup_cons]
  by_cases hk : k = key
  · subst hk
    have hin : ¬ LeadsOut entries k := fun hout => hrule hout.isLink
    simp [hrule, hin]
  · rw [beq_eq_false_iff_ne.mpr hk, h k]
    simp [hk]

/-- The table after an entry has been read. -/
def note (t : Table) (key : String) : Option Nat → Table
  | some n => { t with places := (key, n) :: t.places }
  | none => t

/-- When an entry has been read it gets its place, unless it leads out of the grammar. -/
theorem Noted.leave (h : Noted entries (key :: around) seen t) (haround : key ∉ around)
    (hseen : key ∈ seen) {id : Option Nat} (hid : id = none ↔ LeadsOut entries key) :
    Noted entries around seen (note t key id) := by
  intro k
  cases id with
  | none =>
    have hout := hid.mp rfl
    rw [note, h k]
    by_cases hk : k = key
    · subst hk
      simp [hout]
    · simp [hk]
  | some n =>
    have hin : ¬ LeadsOut entries key := fun hout => by cases hid.mpr hout
    rw [note, List.lookup_cons]
    by_cases hk : k = key
    · subst hk
      simp [hseen, haround, hin]
    · rw [beq_eq_false_iff_ne.mpr hk, h k]
      simp [hk]

/-! ## Reading parts of a grammar -/

/-- Reading a part of a grammar meets certain items: it gives an answer when all of them are met, or
fails for the one that stops it. -/
def Goes {α : Type} (source : String) (entries : Json.Members) (around : List String)
    (act : Build α) (todo : List Item) (good : α → Prop) : Prop :=
  ∀ seen t, around ⊆ seen → Noted entries around seen t →
    (∃ a t' seen', act.run t = .ok (a, t') ∧ good a ∧ Noted entries around seen' t' ∧
      Trail entries around seen todo (.ok seen')) ∨
    ∃ stop : Stop, act.run t = .error (stop.fault source) ∧
      Trail entries around seen todo (.error stop)

section goes

variable {α β : Type} {source : String} {act : Build α} {next : α → Build β} {good : α → Prop}
  {good' : β → Prop}

theorem run_bind_of_ok {a : α} (h : act.run t = .ok (a, t')) :
    (act >>= next).run t = (next a).run t' := by
  rw [StateT.run_bind, h]
  rfl

/-- What takes no notice of the places of entries. -/
theorem goes_of_run (h : ∀ t, ∃ a t', act.run t = .ok (a, t') ∧ good a ∧ t'.places = t.places) :
    Goes source entries around act [] good := by
  intro seen t _ hnoted
  obtain ⟨a, t', hrun, hgood, hplaces⟩ := h t
  refine Or.inl ⟨a, t', seen, hrun, hgood, ?_, .nil⟩
  intro key
  rw [hplaces]
  exact hnoted key

theorem goes_pure {a : α} (h : good a) : Goes source entries around (pure a) [] good :=
  goes_of_run fun t => ⟨a, t, rfl, h, rfl⟩

/-- Less may be said of the answer. -/
theorem Goes.mono (h : Goes source entries around act todo good) {good' : α → Prop}
    (hgood : ∀ a, good a → good' a) : Goes source entries around act todo good' := by
  intro seen t haround hnoted
  rcases h seen t haround hnoted with ⟨a, t', seen', hrun, ha, hrest⟩ | hstopped
  · exact Or.inl ⟨a, t', seen', hrun, hgood a ha, hrest⟩
  · exact Or.inr hstopped

theorem goes_refuse {cause : GrammarFault} :
    Goes source entries around (refuse source cause) [.flaw cause] good :=
  fun _ _ _ _ => Or.inr ⟨.flaw cause, rfl, .flaw⟩

/-- Two parts are read one after the other. -/
theorem Goes.bind (h : Goes source entries around act todo good)
    (hnext : ∀ a, good a → Goes source entries around (next a) more good') :
    Goes source entries around (act >>= next) (todo ++ more) good' := by
  intro seen t haround hnoted
  rcases h seen t haround hnoted with
    ⟨a, t', mid, hrun, hgood, hnoted', htrail⟩ | ⟨stop, hrun, htrail⟩
  · have hgrown := List.Subset.trans haround (htrail.grows rfl).subset
    have hbind : (act >>= next).run t = (next a).run t' := run_bind_of_ok hrun
    rcases hnext a hgood mid t' hgrown hnoted' with
      ⟨b, t'', seen', hrun', hgood', hnoted'', htrail'⟩ | ⟨stop, hrun', htrail'⟩
    · exact Or.inl ⟨b, t'', seen', hbind.trans hrun', hgood', hnoted'', htrail.append rfl htrail'⟩
    · exact Or.inr ⟨stop, hbind.trans hrun', htrail.append rfl htrail'⟩
  · refine Or.inr ⟨stop, ?_, htrail.append_stopped rfl more⟩
    rw [StateT.run_bind, hrun]
    rfl

/-- A part that meets nothing comes first. -/
theorem Goes.after (h : Goes source entries around act [] good)
    (hnext : ∀ a, good a → Goes source entries around (next a) more good') :
    Goes source entries around (act >>= next) more good' :=
  h.bind hnext

/-- A part that meets nothing comes last. -/
theorem Goes.before (h : Goes source entries around act todo good)
    (hnext : ∀ a, good a → Goes source entries around (next a) [] good') :
    Goes source entries around (act >>= next) todo good' := by
  have hboth := h.bind hnext
  rwa [List.append_nil] at hboth

end goes

section parts

variable {source : String} {reading : String → Build (Option Nat)}

/-- Reading a pattern meets the pattern. -/
theorem goes_pattern (what : String) (value : Json) :
    Goes source entries around (pattern source what value) [patternItem what value]
      fun _ => True := by
  cases value with
  | str text =>
    intro seen t _ hnoted
    cases hcompile : Regex.compile text with
    | ok r =>
      refine Or.inl ⟨r, t, seen, ?_, trivial, hnoted, .pattern hcompile .nil⟩
      rw [pattern, hcompile]
      rfl
    | error e =>
      refine Or.inr ⟨.pattern what text e, ?_, .refused hcompile⟩
      rw [pattern, hcompile]
      rfl
  | _ => exact goes_refuse

/-- Reading what is a rule's own meets its patterns in order. -/
theorem goes_ruleOf (id : Nat) :
    Goes source entries around (ruleOf source id members) (patternItems members)
      fun _ => True := by
  unfold ruleOf patternItems
  dsimp only
  cases Json.Members.get? members "match" with
  | some text => exact (goes_pattern "match" text).before fun _ _ => goes_pure trivial
  | none =>
    cases Json.Members.get? members "begin" with
    | none => exact goes_pure trivial
    | some text =>
      refine (goes_pattern "begin" text).bind fun beginning _ => ?_
      cases Json.Members.get members "end" with
      | str ending => exact (goes_pattern "end" _).before fun _ _ => goes_pure trivial
      | _ => exact goes_refuse

/-- The place that is taken is the next one, and it is noted. -/
theorem takePlace_run (key : String) (t : Table) : ∃ t',
    (takePlace (some key)).run t = .ok (t.rules.size, t') ∧
      t'.places = (key, t.rules.size) :: t.places :=
  ⟨_, rfl, rfl⟩

theorem goes_takePlace : Goes source entries around (takePlace none) [] fun _ => True :=
  goes_of_run fun t => ⟨t.rules.size, _, rfl, trivial, rfl⟩

theorem goes_fill (found : Rule) : Goes source entries around (fill found) [] fun _ => True :=
  goes_of_run fun _ => ⟨(), _, rfl, trivial, rfl⟩

/-- What is left of a rule when it has its place. -/
def restOf (source : String) (reading : String → Build (Option Nat))
    (members : List (String × Json)) (id : Nat) : Build (Option Nat) := do
  let found ← ruleOf source id members
  let inner ← innerOf source reading members
  fill { found with inner }
  return some id

/-- A rule without an include takes a place and is read to its end. -/
theorem rule_of_own (hown : Json.Members.get? members "include" = none) (key : Option String) :
    rule source reading key (.obj members) = takePlace key >>= restOf source reading members := by
  rw [rule, hown]
  rfl

/-- A rule with an include is what it includes. -/
theorem rule_of_link (hinclude : Json.Members.get? members "include" = some reference)
    (key : Option String) :
    rule source reading key (.obj members) = included source reading reference := by
  rw [rule, hinclude]

/-- The rest of a rule meets its patterns, and then the rules in it. -/
theorem goes_restOf
    (hinner : Goes source entries around (innerOf source reading members) (itemsInner members)
      fun _ => True) (id : Nat) :
    Goes source entries around (restOf source reading members id)
      (patternItems members ++ itemsInner members) fun found => found = some id :=
  (goes_ruleOf id).bind fun _ _ => hinner.before fun _ _ =>
    (goes_fill _).after fun _ _ => goes_pure rfl

/-- An include of an entry is read as the entry. -/
theorem included_of_key (hkey : keyOf? reference = some key) :
    included source reading reference = reading key := by
  unfold keyOf? at hkey
  split at hkey
  next text =>
    split at hkey
    next rest htext =>
      cases hkey
      have hne : ∀ other : String, other.toList.head? ≠ some '#' → text ≠ other := by
        rintro other hother rfl
        rw [htext] at hother
        exact hother rfl
      unfold included
      dsimp only
      rw [if_neg (hne "" (by decide)),
        if_neg (not_or.mpr ⟨hne "$self" (by decide), hne "$base" (by decide)⟩), htext]
      rfl
    · cases hkey
  · cases hkey

/-- A reference that names no entry of the repository stands for the root or for another grammar. -/
theorem included_of_text {text : String} (htext : text ≠ "") (hkey : keyOf? (.str text) = none) :
    included source reading (.str text) =
      pure (if text = "$self" ∨ text = "$base" then some 0 else none) := by
  unfold included
  dsimp only
  rw [if_neg htext]
  split
  · rfl
  · unfold keyOf? at hkey
    dsimp only at hkey
    split
    next rest hrest =>
      rw [hrest] at hkey
      cases hkey
    · rfl

/-- A reference is read as the entry that it names, if it names one. -/
theorem goes_included {good : Option Nat → Prop}
    (hreading : ∀ key ∈ keyOf? reference,
      Goes source entries around (reading key) [.entry key] good)
    (hother : ∀ text, reference = .str text → text ≠ "" → keyOf? reference = none →
      good (if text = "$self" ∨ text = "$base" then some 0 else none)) :
    Goes source entries around (included source reading reference) (referenceItems reference)
      good := by
  cases reference with
  | str text =>
    unfold referenceItems
    dsimp only
    split
    next htext =>
      subst htext
      exact goes_refuse
    next htext =>
      cases hkey : keyOf? (.str text) with
      | none =>
        rw [included_of_text htext hkey]
        exact goes_pure (hother text rfl htext hkey)
      | some key =>
        rw [included_of_key hkey]
        exact hreading key hkey
  | _ => exact goes_refuse

-- one case for each shape of a description, as in the readers themselves
mutual

/-- Reading a rule meets its items, as long as reading the entries does that it refers to. -/
theorem goes_rule : ∀ value : Json,
    (∀ key ∈ includes value, Goes source entries around (reading key) [.entry key]
      fun _ => True) →
    Goes source entries around (rule source reading none value) (items value) fun _ => True
  | .obj members, hreading => by
    unfold includes at hreading
    unfold items
    cases hinclude : Json.Members.get? members "include" with
    | some reference =>
      simp only [hinclude] at hreading
      rw [rule_of_link hinclude]
      exact goes_included (by simpa using hreading) fun _ _ _ _ => trivial
    | none =>
      simp only [hinclude] at hreading
      rw [rule_of_own hinclude]
      exact goes_takePlace.after fun id _ =>
        (goes_restOf (goes_innerOf members hreading) id).mono fun _ _ => trivial
  | .null, _ | .bool _, _ | .int _, _ | .float _, _ | .arr _, _ | .str _, _ => by
    unfold rule items; exact goes_refuse

/-- So does reading the rules in a description. -/
theorem goes_innerOf : ∀ members : List (String × Json),
    (∀ key ∈ includesInner members, Goes source entries around (reading key) [.entry key]
      fun _ => True) →
    Goes source entries around (innerOf source reading members) (itemsInner members)
      fun _ => True
  | [], _ => by unfold innerOf itemsInner; exact goes_pure trivial
  | (key, value) :: rest, hreading => by
    unfold innerOf itemsInner
    unfold includesInner at hreading
    split
    next hkey =>
      rw [if_pos hkey] at hreading
      exact goes_listed value hreading
    next hkey =>
      rw [if_neg hkey] at hreading
      exact goes_innerOf rest hreading

/-- So does reading a list. -/
theorem goes_listed : ∀ value : Json,
    (∀ key ∈ includesListed value, Goes source entries around (reading key) [.entry key]
      fun _ => True) →
    Goes source entries around (listed source reading value) (itemsListed value) fun _ => True
  | .null, _ => by unfold listed itemsListed; exact goes_pure trivial
  | .arr rules, hreading => by
    unfold includesListed at hreading
    unfold listed itemsListed
    exact goes_each rules hreading
  | .obj _, _ | .bool _, _ | .int _, _ | .float _, _ | .str _, _ => by
    unfold listed itemsListed; exact goes_refuse

/-- So does reading one rule after the other. -/
theorem goes_each : ∀ rules : List Json,
    (∀ key ∈ includesEach rules, Goes source entries around (reading key) [.entry key]
      fun _ => True) →
    Goes source entries around (each source reading rules) (itemsEach rules) fun _ => True
  | [], _ => by unfold each itemsEach; exact goes_pure trivial
  | rule :: rest, hreading => by
    unfold includesEach at hreading
    unfold each itemsEach
    have hrule := goes_rule rule fun key hkey => hreading key (List.mem_append_left _ hkey)
    have hrest := goes_each rest fun key hkey => hreading key (List.mem_append_right _ hkey)
    exact hrule.bind fun _ _ => hrest.before fun _ _ => goes_pure trivial

end

end parts

/-! ## Entries -/

section entry

variable {source : String} {hops : Nat} {value : Json}

private theorem run_get_bind {α : Type} {act : Table → Build α} :
    (get >>= act).run t = (act t).run t := rfl

/-- An entry that has a place is not read again. -/
theorem entry_of_place {id : Nat} (hplace : t.places.lookup key = some id) :
    (entry source entries (hops + 1) around key).run t = .ok (some id, t) := by
  rw [entry, run_get_bind, hplace]
  rfl

/-- An entry that is not there is refused. -/
theorem entry_of_unknown (hplace : t.places.lookup key = none) (hentry : entries.get? key = none) :
    (entry source entries (hops + 1) around key).run t =
      .error (.grammar source (.unknownInclude ("#" ++ key))) := by
  rw [entry, run_get_bind, hplace]
  dsimp only
  rw [hentry]
  rfl

/-- An entry that is just being read, and has no place yet, is refused as circular. -/
theorem entry_of_around (hplace : t.places.lookup key = none)
    (hentry : entries.get? key = some value) (haround : key ∈ around) :
    (entry source entries (hops + 1) around key).run t =
      .error (.grammar source (.circularInclude ("#" ++ key))) := by
  rw [entry, run_get_bind, hplace]
  dsimp only
  rw [hentry]
  dsimp only
  rw [if_pos (List.contains_iff_mem.mpr haround)]
  rfl

/-- Any other entry is read, and what it comes to is noted for it. -/
theorem entry_of_new (hplace : t.places.lookup key = none)
    (hentry : entries.get? key = some value) (haround : key ∉ around) :
    (entry source entries (hops + 1) around key).run t = (do
      let (id, t') ←
        (rule source (entry source entries hops (key :: around)) (some key) value).run t
      return (id, note t' key id)) := by
  rw [entry, run_get_bind, hplace]
  dsimp only
  rw [hentry]
  dsimp only
  rw [if_neg (mt List.contains_iff_mem.mp haround), StateT.run_bind]
  refine bind_congr fun found => ?_
  obtain ⟨id, t'⟩ := found
  cases id <;> rfl

/-- The entries that are being read are different ones of the repository, and there are steps left
for all others. -/
structure Open (entries : Json.Members) (around : List String) (hops : Nat) : Prop where
  nodup : around.Nodup
  keys : around ⊆ entries.map (·.1)
  enough : entries.length < hops + around.length

/-- There is a step left for an entry that is to be read. -/
theorem Open.pos (h : Open entries around hops) : 0 < hops := by
  have hlength := (h.nodup.subperm h.keys).length_le
  rw [List.length_map] at hlength
  have henough := h.enough
  omega

/-- An entry that is not being read may be, with a step less. -/
theorem Open.enter (h : Open entries around (hops + 1)) (haround : key ∉ around)
    (hentry : entries.get? key = some value) : Open entries (key :: around) hops where
  nodup := List.nodup_cons.mpr ⟨haround, h.nodup⟩
  keys := List.cons_subset.mpr ⟨isSome_lookup.mp (Option.isSome_of_eq_some hentry), h.keys⟩
  enough := by
    have henough := h.enough
    rw [List.length_cons]
    omega

/-- What is referred to is led to by all that is being read. -/
private theorem path_enter
    (hpath : ∀ a ∈ around, TransGen (fun x y => y ∈ refersTo entries x) a key)
    (hnext : next ∈ refersTo entries key) :
    ∀ a ∈ key :: around, TransGen (fun x y => y ∈ refersTo entries x) a next := by
  intro a ha
  rcases List.mem_cons.mp ha with rfl | ha
  · exact .single hnext
  · exact .tail (hpath a ha) hnext

/-- A link that leads out of the grammar is followed anew each time, and that changes nothing. -/
theorem entry_of_leadsOut (h : LeadsOut entries key) (hopen : Open entries around hops)
    (hpath : ∀ a ∈ around, TransGen (fun x y => y ∈ refersTo entries x) a key)
    (hplaces : ∀ k, LeadsOut entries k → t.places.lookup k = none) :
    (entry source entries hops around key).run t = .ok (none, t) := by
  induction h generalizing hops around with
  | @out key members text hentry hinclude htext hother hkey =>
    have hout : LeadsOut entries key := .out hentry hinclude htext hother hkey
    obtain ⟨hops, rfl⟩ := Nat.exists_eq_succ_of_ne_zero hopen.pos.ne'
    have haround : key ∉ around := fun hin => hout.not_circle (hpath key hin)
    rw [entry_of_new (hplaces key hout) hentry haround, rule_of_link hinclude,
      included_of_text htext hkey, if_neg hother]
    rfl
  | @link key next members reference hentry hinclude hkey hnext ih =>
    have hout : LeadsOut entries key := .link hentry hinclude hkey hnext
    obtain ⟨hops, rfl⟩ := Nat.exists_eq_succ_of_ne_zero hopen.pos.ne'
    have haround : key ∉ around := fun hin => hout.not_circle (hpath key hin)
    have hrefers : next ∈ refersTo entries key := by
      rw [refersTo_of_link hentry hinclude, hkey]
      exact List.mem_singleton_self _
    rw [entry_of_new (hplaces key hout) hentry haround, rule_of_link hinclude,
      included_of_key hkey, ih (hopen.enter haround hentry) (path_enter hpath hrefers)]
    rfl

/-- An entry that is an include is read as what it includes. -/
theorem goes_link {reading : String → Build (Option Nat)}
    (hentry : entries.get? key = some (.obj members))
    (hinclude : Json.Members.get? members "include" = some reference)
    (hreading : ∀ next ∈ refersTo entries key, Goes source entries (key :: around) (reading next)
      [.entry next] fun id => id = none ↔ LeadsOut entries next) :
    Goes source entries (key :: around) (included source reading reference)
      (referenceItems reference) fun id => id = none ↔ LeadsOut entries key := by
  refine goes_included ?_ ?_
  · intro next hnext
    simp only [leadsOut_iff_of_key hentry hinclude hnext]
    exact hreading next (by
      rw [refersTo_of_link hentry hinclude, hnext]
      exact List.mem_singleton_self _)
  · rintro text rfl htext hkey
    rw [leadsOut_iff_of_text hentry hinclude htext hkey]
    split
    next hself => simp [hself]
    next hother => simp [hother]

/-- Where an entry is referred to first, its items are met, inside of it. -/
theorem rule_of_new {reading : String → Build (Option Nat)}
    (hentry : entries.get? key = some value)
    (hreading : ∀ next ∈ refersTo entries key, Goes source entries (key :: around) (reading next)
      [.entry next] fun id => id = none ↔ LeadsOut entries next)
    (haround : around ⊆ seen) (hnoted : Noted entries around seen t) (hnew : key ∉ seen) :
    (∃ id t' seen', (rule source reading (some key) value).run t = .ok (id, t') ∧
      (id = none ↔ LeadsOut entries key) ∧ Noted entries (key :: around) seen' t' ∧
      Trail entries (key :: around) (seen ++ [key]) (items value) (.ok seen')) ∨
    ∃ stop : Stop, (rule source reading (some key) value).run t = .error (stop.fault source) ∧
      Trail entries (key :: around) (seen ++ [key]) (items value) (.error stop) := by
  have hstill : key :: around ⊆ seen ++ [key] :=
    List.cons_subset.mpr ⟨by simp, List.subset_append_of_subset_left _ haround⟩
  cases value with
  | obj members =>
    unfold items
    cases hinclude : Json.Members.get? members "include" with
    | some reference =>
      rw [rule_of_link hinclude]
      exact goes_link hentry hinclude hreading _ t hstill
        (hnoted.enterLink hnew ⟨_, _, hentry, hinclude⟩)
    | none =>
      have hrefers : refersTo entries key = includesInner members := by
        simp only [refersTo, hentry, includes, hinclude]
      have hrule : ¬ IsLink entries key := by
        rintro ⟨_, _, hentry', hinclude'⟩
        cases hentry.symm.trans hentry'
        rw [hinclude] at hinclude'
        cases hinclude'
      have hin : ¬ LeadsOut entries key := fun hout => hrule hout.isLink
      rw [hrefers] at hreading
      -- it takes its place first, and its parts are read from there
      obtain ⟨t', htake, hplaces⟩ := takePlace_run key t
      rw [rule_of_own hinclude, run_bind_of_ok htake]
      have hinner := goes_innerOf members fun next hnext =>
        (hreading next hnext).mono fun _ _ => trivial
      refine ((goes_restOf hinner t.rules.size).mono ?_) _ t' hstill
        (hnoted.enterRule hrule hplaces)
      rintro _ rfl
      simp [hin]
  | _ =>
    unfold rule items
    exact Or.inr ⟨.flaw .ruleNotObject, rfl, .flaw⟩

/-- An entry that is referred to has its place already, or is read, or stops the reading. -/
theorem goes_entry (hopen : Open entries around hops)
    (hpath : ∀ a ∈ around, TransGen (fun x y => y ∈ refersTo entries x) a key) :
    Goes source entries around (entry source entries hops around key) [.entry key]
      fun id => id = none ↔ LeadsOut entries key := by
  -- on the steps that are left; each of them opens an entry that was not open
  induction hops generalizing around key with
  | zero => exact absurd hopen.pos (lt_irrefl 0)
  | succ hops ih =>
    intro seen t haround hnoted
    cases hplace : t.places.lookup key with
    | some id =>
      obtain ⟨hseen, hfree, hin⟩ := (hnoted key).mp (Option.isSome_of_eq_some hplace)
      exact Or.inl ⟨some id, t, seen, entry_of_place hplace, iff_of_false (by simp) hin, hnoted,
        .old hseen hfree .nil⟩
    | none =>
      have hunplaced : ¬ (key ∈ seen ∧ ¬ (key ∈ around ∧ IsLink entries key) ∧
          ¬ LeadsOut entries key) := by
        rw [← hnoted key, hplace]
        exact Bool.false_ne_true
      by_cases hinside : key ∈ around
      · -- only links have no place while they are read
        have hlink : IsLink entries key := by
          by_contra hrule
          exact hunplaced ⟨haround hinside, fun h => hrule h.2, fun hout => hrule hout.isLink⟩
        have ⟨_, _, hentry, _⟩ := hlink
        exact Or.inr ⟨.flaw _, entry_of_around hplace hentry hinside,
          .circle (haround hinside) hinside hlink⟩
      · by_cases hseen : key ∈ seen
        · -- and of what has been read only links that lead out
          have hout : LeadsOut entries key := by
            by_contra hin
            exact hunplaced ⟨hseen, fun h => hinside h.1, hin⟩
          have hplaces : ∀ k, LeadsOut entries k → t.places.lookup k = none := by
            intro k hk
            rw [← Option.not_isSome_iff_eq_none, hnoted k]
            exact fun h => h.2.2 hk
          exact Or.inl ⟨none, t, seen, entry_of_leadsOut hout hopen hpath hplaces,
            iff_of_true rfl hout, hnoted, .old hseen (fun h => hinside h.1) .nil⟩
        · cases hentry : entries.get? key with
          | none =>
            exact Or.inr ⟨.flaw _, entry_of_unknown hplace hentry, .unknown hseen hentry⟩
          | some value =>
            rw [entry_of_new hplace hentry hinside]
            rcases rule_of_new hentry (fun next hnext => ih (hopen.enter hinside hentry)
              (path_enter hpath hnext)) haround hnoted hseen with
              ⟨id, t', seen', hrun, hid, hnoted', htrail⟩ | ⟨stop, hrun, htrail⟩
            · have hin : key ∈ seen' := (htrail.grows rfl).subset (by simp)
              refine Or.inl ⟨id, note t' key id, seen', ?_, hid, hnoted'.leave hinside hin hid,
                .new hseen hentry htrail .nil⟩
              rw [hrun]
              rfl
            · refine Or.inr ⟨stop, ?_, .inner hseen hentry htrail⟩
              rw [hrun]
              rfl

/-- The rules of a grammar are read when all items are met that its patterns come to. -/
theorem table_trail (hrepository : repository source members = .ok entries) :
    (∃ rules seen, table source members = .ok rules ∧
      Trail entries [] [] (itemsInner members) (.ok seen)) ∨
    ∃ stop : Stop, table source members = .error (stop.fault source) ∧
      Trail entries [] [] (itemsInner members) (.error stop) := by
  have hopen : Open entries [] (entries.length + 1) :=
    ⟨List.nodup_nil, List.nil_subset _, by simp⟩
  have hinner : Goes source entries [] (innerOf source
      (entry source entries (entries.length + 1) []) members) (itemsInner members)
      fun _ => True :=
    goes_innerOf members fun _ _ => (goes_entry hopen (by simp)).mono fun _ _ => trivial
  have hall := goes_takePlace.after fun _ _ => hinner.before fun inner _ =>
    goes_fill { id := 0, inner }
  have htable : table source members = ((takePlace none >>= fun _ =>
      innerOf source (entry source entries (entries.length + 1) []) members >>= fun inner =>
        fill { id := 0, inner }).run {}).map fun found => found.2.rules := by
    rw [table, hrepository]
    rfl
  rw [htable]
  rcases hall [] {} (List.nil_subset _) (noted_empty entries {} rfl) with
    ⟨_, t, seen, hrun, _, _, htrail⟩ | ⟨stop, hrun, htrail⟩
  · exact Or.inl ⟨t.rules, seen, by rw [hrun]; rfl, htrail⟩
  · exact Or.inr ⟨stop, by rw [hrun]; rfl, htrail⟩

end entry

end Build

end Grammar

end Conceal
