import Conceal.Grammar.Rule
import Mathlib.Logic.Relation

/-!
Which entries of its repository a grammar refers to, and when its rules are in order. An entry is a
link if it is nothing but an include. A link has nothing of its own: it is either the entry that it
includes, or leads out of the grammar, where nothing is looked for.
-/

namespace Conceal

namespace Grammar

open Relation (TransGen ReflTransGen)

namespace Build

/-! ## What a grammar includes -/

/-- The entry of the repository that a reference names. -/
def keyOf? : Json → Option String
  | .str reference =>
    match reference.toList with
    | '#' :: key => some (String.ofList key)
    | _ => none
  | _ => none

mutual

/-- The entries that a rule refers to, in order. -/
def includes : Json → List String
  | .obj members =>
    match Json.Members.get? members "include" with
    | some reference => (keyOf? reference).toList
    | none => includesInner members
  | _ => []

/-- The entries that are referred to by the rules listed among the members of an object. -/
def includesInner : List (String × Json) → List String
  | [] => []
  | (key, value) :: rest => if key = "patterns" then includesListed value else includesInner rest

/-- The entries that the rules in a list refer to. -/
def includesListed : Json → List String
  | .arr items => includesEach items
  | _ => []

/-- The entries that rules refer to, one after the other. -/
def includesEach : List Json → List String
  | [] => []
  | item :: rest => includes item ++ includesEach rest

end

/-- A value is a pattern that can be read. -/
def Compiles (value : Json) : Prop := ∃ text r, value = .str text ∧ Regex.compile text = .ok r

/-- The patterns of a rule can be read. -/
def Readable (members : Json.Members) : Prop :=
  match members.get? "match", members.get? "begin" with
  | some text, _ => Compiles text
  | none, some text => Compiles text ∧
      ∃ ending, members.get "end" = .str ending ∧ Compiles (.str (withoutReferences ending))
  | none, none => True

mutual

/-- A rule is in order, but for the entries that it refers to. -/
def Valid : Json → Prop
  | .obj members =>
    match Json.Members.get? members "include" with
    | some reference => ∃ text, reference = .str text ∧ text ≠ ""
    | none => Readable members ∧ ValidInner members
  | _ => False

/-- The rules listed among the members of an object are in order. -/
def ValidInner : List (String × Json) → Prop
  | [] => True
  | (key, value) :: rest => if key = "patterns" then ValidListed value else ValidInner rest

/-- The rules in a list are in order; it may be missing. -/
def ValidListed : Json → Prop
  | .null => True
  | .arr items => ValidEach items
  | _ => False

/-- Rules are in order. -/
def ValidEach : List Json → Prop
  | [] => True
  | item :: rest => Valid item ∧ ValidEach rest

end

section repository

variable (entries : Json.Members)

/-- The entries that an entry refers to. -/
def refersTo (key : String) : List String :=
  match entries.get? key with
  | some value => includes value
  | none => []

/-- An entry is nothing but an include. -/
def IsLink (key : String) : Prop :=
  ∃ members reference, entries.get? key = some (.obj members) ∧
    Json.Members.get? members "include" = some reference

/-- An entry is used by others, or by what they use. -/
def Used (roots : List String) (key : String) : Prop :=
  ∃ root ∈ roots, ReflTransGen (fun x y => y ∈ refersTo entries x) root key

/-- A link stands for another grammar, or for a link that does. -/
inductive LeadsOut : String → Prop
  | out {key : String} {members : List (String × Json)} {text : String}
      (hentry : entries.get? key = some (.obj members))
      (hinclude : Json.Members.get? members "include" = some (.str text))
      (htext : text ≠ "") (hother : ¬ (text = "$self" ∨ text = "$base"))
      (hkey : keyOf? (.str text) = none) : LeadsOut key
  | link {key next : String} {members : List (String × Json)} {reference : Json}
      (hentry : entries.get? key = some (.obj members))
      (hinclude : Json.Members.get? members "include" = some reference)
      (hkey : keyOf? reference = some next) (hnext : LeadsOut next) : LeadsOut key

end repository

variable {entries : Json.Members} {key next : String} {members : List (String × Json)}
  {reference : Json}

/-- A link refers to the entry that its include names, if it names one. -/
theorem refersTo_of_link (hentry : entries.get? key = some (.obj members))
    (hinclude : Json.Members.get? members "include" = some reference) :
    refersTo entries key = (keyOf? reference).toList := by
  simp only [refersTo, hentry, includes, hinclude]

theorem LeadsOut.isLink (h : LeadsOut entries key) : IsLink entries key := by
  cases h with
  | out hentry hinclude _ _ _ => exact ⟨_, _, hentry, hinclude⟩
  | link hentry hinclude _ _ => exact ⟨_, _, hentry, hinclude⟩

/-- What leads out of the grammar does not lead back. -/
theorem LeadsOut.not_circle (h : LeadsOut entries key) :
    ¬ TransGen (fun x y => y ∈ refersTo entries x) key key := by
  induction h with
  | out hentry hinclude _ _ hkey =>
    intro hcircle
    obtain ⟨_, hstep, _⟩ := TransGen.head'_iff.mp hcircle
    rw [refersTo_of_link hentry hinclude, hkey] at hstep
    cases hstep
  | @link key next _ _ hentry hinclude hkey _ ih =>
    -- the one reference of a link leads on to the next, which would lie on the circle too
    intro hcircle
    have hrefs : refersTo entries key = [next] := by
      rw [refersTo_of_link hentry hinclude, hkey]
      rfl
    obtain ⟨x, hstep, hback⟩ := TransGen.head'_iff.mp hcircle
    rw [hrefs, List.mem_singleton] at hstep
    subst hstep
    exact ih (TransGen.tail' hback (by rw [hrefs]; exact List.mem_singleton_self _))

/-- A link to a link leads out exactly if the other one does. -/
theorem leadsOut_iff_of_key (hentry : entries.get? key = some (.obj members))
    (hinclude : Json.Members.get? members "include" = some reference)
    (hkey : keyOf? reference = some next) : LeadsOut entries key ↔ LeadsOut entries next := by
  constructor
  · intro h
    cases h with
    | out hentry' hinclude' _ _ hkey' =>
      cases hentry.symm.trans hentry'
      cases hinclude.symm.trans hinclude'
      cases hkey.symm.trans hkey'
    | link hentry' hinclude' hkey' hnext =>
      cases hentry.symm.trans hentry'
      cases hinclude.symm.trans hinclude'
      cases hkey.symm.trans hkey'
      exact hnext
  · exact .link hentry hinclude hkey

/-- A link to no entry leads out, unless it is to the grammar itself. -/
theorem leadsOut_iff_of_text {text : String} (hentry : entries.get? key = some (.obj members))
    (hinclude : Json.Members.get? members "include" = some (.str text)) (htext : text ≠ "")
    (hkey : keyOf? (.str text) = none) :
    LeadsOut entries key ↔ ¬ (text = "$self" ∨ text = "$base") := by
  constructor
  · intro h
    cases h with
    | out hentry' hinclude' _ hother _ =>
      cases hentry.symm.trans hentry'
      cases hinclude.symm.trans hinclude'
      exact hother
    | link hentry' hinclude' hkey' _ =>
      cases hentry.symm.trans hentry'
      cases hinclude.symm.trans hinclude'
      cases hkey.symm.trans hkey'
  · exact fun hother => .out hentry hinclude htext hother hkey

end Build

end Grammar

end Conceal
