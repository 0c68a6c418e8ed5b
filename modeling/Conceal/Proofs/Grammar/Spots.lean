import Conceal.Proofs.Grammar.Includes

/-!
Where the rules of a grammar are written: in the grammar itself or in an entry of its repository,
down a way through lists of rules. A rule with something of its own denotes the spot that it is
written at, and an include denotes what the entry does that it names. Of all that is written a
grammar needs what its own list comes to.
-/

namespace Conceal

namespace Grammar

namespace Build

/-- A spot of a description: the grammar itself or an entry of its repository, and the way down from
there, one number for each list of rules, the last one first. -/
structure Spot where
  entry : Option String
  way : List Nat
deriving DecidableEq

namespace Spot

/-- The spot of the grammar itself. -/
def root : Spot := ⟨none, []⟩

/-- The spot of an entry. -/
def ofEntry (key : String) : Spot := ⟨some key, []⟩

/-- The spot of a rule in the list of another one. -/
def item (s : Spot) (n : Nat) : Spot := ⟨s.entry, n :: s.way⟩

/-- The spot that the way down starts from. -/
def top (s : Spot) : Spot := ⟨s.entry, []⟩

/-- The entry that is written at a spot, if that is an entry as a whole. -/
def key? (s : Spot) : Option String := if s.way = [] then s.entry else none

/-- A spot with a key is where its entry is written. -/
theorem eq_ofEntry_of_key? {s : Spot} {key : String} (h : s.key? = some key) : s = ofEntry key := by
  obtain ⟨entry, way⟩ := s
  unfold key? at h
  split at h
  next hway =>
    cases hway
    cases h
    rfl
  · cases h

/-- A spot lies at another one or below it. -/
def Below (s s' : Spot) : Prop := s'.entry = s.entry ∧ s.way <:+ s'.way

theorem Below.refl (s : Spot) : Below s s := ⟨rfl, List.suffix_refl _⟩

/-- What is below a spot belongs to the same entry. -/
theorem Below.top_eq {s s' : Spot} (h : Below s s') : s'.top = s.top := by
  rw [top, top, h.1]

theorem Below.of_item {s s' : Spot} {n : Nat} (h : Below (s.item n) s') : Below s s' :=
  ⟨h.1, (List.suffix_cons n s.way).trans h.2⟩

/-- Nothing lies below two rules of one list. -/
theorem Below.item_unique {s s' : Spot} {n k : Nat} (h : Below (s.item n) s')
    (h' : Below (s.item k) s') : n = k := by
  have hsuffix : n :: s.way <:+ k :: s.way :=
    List.suffix_of_suffix_length_le h.2 h'.2 (Nat.le_refl _)
  have heq : n :: s.way = k :: s.way := hsuffix.eq_of_length rfl
  exact (List.cons.inj heq).1

/-- No spot is below a rule in its own list. -/
theorem not_below_item (s : Spot) (n : Nat) : ¬ Below (s.item n) s := by
  intro h
  have hlength := h.2.length_le
  rw [item, List.length_cons] at hlength
  omega

end Spot

/-- The rules in a list; what is no list has none. -/
def rulesOf : Json → List Json
  | .arr rules => rules
  | _ => []

/-- The rules that are listed among the members of an object. -/
def rulesIn (members : Json.Members) : List Json := rulesOf (members.get "patterns")

theorem rulesIn_cons (key : String) (value : Json) (rest : Json.Members) :
    rulesIn ((key, value) :: rest) = if key = "patterns" then rulesOf value else rulesIn rest := by
  rw [rulesIn, Json.Members.get, Json.Members.get?, List.lookup_cons]
  by_cases hkey : key = "patterns"
  · rw [if_pos hkey, beq_iff_eq.mpr hkey.symm]
    rfl
  · rw [if_neg hkey, beq_eq_false_iff_ne.mpr (Ne.symm hkey)]
    rfl

section description

variable (members entries : Json.Members)

/-- What is written down a way from the grammar itself or from an entry. -/
def writtenAlong? (entry : Option String) : List Nat → Option Json
  | [] =>
    match entry with
    | none => some (.obj members)
    | some key => entries.get? key
  | n :: way =>
    match writtenAlong? entry way with
    | some (.obj inner) => (rulesIn inner)[n]?
    | _ => none

/-- What is written at a spot. -/
def Spot.written? (s : Spot) : Option Json := writtenAlong? members entries s.entry s.way

/-- What a rule denotes that is written at a spot: the spot of a rule, or none. -/
inductive Denotes : Spot → Json → Option Spot → Prop
  | own {s : Spot} {rule : Json.Members} (hown : rule.get? "include" = none) :
      Denotes s (.obj rule) (some s)
  | root {s : Spot} {rule : Json.Members} {text : String}
      (hinclude : rule.get? "include" = some (.str text))
      (hself : text = "$self" ∨ text = "$base") : Denotes s (.obj rule) (some .root)
  | outside {s : Spot} {rule : Json.Members} {text : String}
      (hinclude : rule.get? "include" = some (.str text))
      (hother : ¬ (text = "$self" ∨ text = "$base")) (hkey : keyOf? (.str text) = none) :
      Denotes s (.obj rule) none
  | entry {s : Spot} {rule : Json.Members} {reference value : Json} {key : String}
      {target : Option Spot} (hinclude : rule.get? "include" = some reference)
      (hkey : keyOf? reference = some key) (hentry : entries.get? key = some value)
      (h : Denotes (.ofEntry key) value target) : Denotes s (.obj rule) target

/-- The spots of the rules that a grammar needs: its own, and those that the rules denote which are
listed at such a spot. -/
inductive Needed : Spot → Prop
  | root : Needed .root
  | listed {s target : Spot} {rule : Json.Members} {n : Nat} {value : Json} (h : Needed s)
      (hwritten : s.written? members entries = some (.obj rule))
      (hvalue : (rulesIn rule)[n]? = some value)
      (hdenotes : Denotes entries (s.item n) value (some target)) : Needed target

end description

variable {members entries : Json.Members} {s : Spot} {rule : Json.Members} {value : Json}
  {target : Option Spot} {key : String}

/-- What is written at a rule of a list is the rule of that number. -/
theorem written?_item (h : s.written? members entries = some (.obj rule)) (n : Nat) :
    (s.item n).written? members entries = (rulesIn rule)[n]? := by
  rw [Spot.written?] at h
  rw [Spot.written?, Spot.item, writtenAlong?, h]

theorem keyOf?_of_self {text : String} (h : text = "$self" ∨ text = "$base") :
    keyOf? (.str text) = none := by
  rcases h with rfl | rfl <;> decide

/-- A rule denotes one spot at most. -/
theorem Denotes.unique {other : Option Spot} (h : Denotes entries s value target)
    (h' : Denotes entries s value other) : target = other := by
  -- whether a value includes another, and which, is read off the value
  induction h with
  | own hown =>
    cases h' with
    | own => rfl
    | root hinclude _ => cases hown.symm.trans hinclude
    | outside hinclude _ _ => cases hown.symm.trans hinclude
    | entry hinclude _ _ _ => cases hown.symm.trans hinclude
  | root hinclude hself =>
    cases h' with
    | own hown => cases hown.symm.trans hinclude
    | root => rfl
    | outside hinclude' hother _ =>
      cases hinclude.symm.trans hinclude'
      exact absurd hself hother
    | entry hinclude' hkey _ _ =>
      cases hinclude.symm.trans hinclude'
      cases (keyOf?_of_self hself).symm.trans hkey
  | outside hinclude hother hkey =>
    cases h' with
    | own hown => cases hown.symm.trans hinclude
    | root hinclude' hself =>
      cases hinclude.symm.trans hinclude'
      exact absurd hself hother
    | outside => rfl
    | entry hinclude' hkey' _ _ =>
      cases hinclude.symm.trans hinclude'
      cases hkey.symm.trans hkey'
  | entry hinclude hkey hentry _ ih =>
    cases h' with
    | own hown => cases hown.symm.trans hinclude
    | root hinclude' hself =>
      cases hinclude.symm.trans hinclude'
      cases (keyOf?_of_self hself).symm.trans hkey
    | outside hinclude' _ hkey' =>
      cases hinclude.symm.trans hinclude'
      cases hkey.symm.trans hkey'
    | entry hinclude' hkey' hentry' h' =>
      cases hinclude.symm.trans hinclude'
      cases hkey.symm.trans hkey'
      cases hentry.symm.trans hentry'
      exact ih h'

end Build

end Grammar

end Conceal
