import Conceal.Fault
import Conceal.Grammar.BackReference

/-!
The rules of a grammar, read from its description into one table. Rules refer to each other by their
place in the table; a rule gets its place before its parts are read, so that they can refer back to
it. An entry of the repository gets one place, when it is first included.
-/

namespace Conceal.Grammar

/-- The names that groups of a match give to their text, by group. -/
abbrev Captures := List (Int × String)

/-- A rule: a pattern that matches within a line, a block with a beginning and an end, or merely a
list of other rules. -/
structure Rule where
  id : Nat
  name : Option String := none
  contentName : Option String := none
  matching : Option Regex := none
  beginning : Option Regex := none
  endSource : Option String := none
  captures : Captures := []
  beginCaptures : Captures := []
  endCaptures : Captures := []
  /-- The rules inside, by their places. -/
  inner : List Nat := []
deriving Repr, Inhabited

/-- The pattern that a rule is looked for with; a mere list has none. -/
def Rule.pattern? (r : Rule) : Option Regex := r.matching <|> r.beginning

/-- Gives a group a name: in place where it has one, else at the end. -/
def Captures.insert : Captures → Int → String → Captures
  | [], group, name => [(group, name)]
  | (g, n) :: rest, group, name =>
    if g = group then (g, name) :: rest else (g, n) :: Captures.insert rest group name

/-- Reads the names of groups. Keys that are no numbers and values without a name are left out. -/
def Captures.ofJson : Json → Captures
  | .obj members =>
    members.foldl (fun acc (key, value) =>
      match Number.readInteger key, value with
      | some group, .obj fields =>
        match Json.Members.get fields "name" with
        | .str name => acc.insert group name
        | _ => acc
      | _, _ => acc) []
  | _ => []

/-- The table while it is being filled. -/
structure Table where
  rules : Array Rule := #[]
  /-- The places of the repository's entries. -/
  places : List (String × Nat) := []

/-- Reading a part of a grammar. -/
abbrev Build (α : Type) := StateT Table (Except Fault) α

namespace Build

/-- Refuses the grammar. -/
def refuse {α : Type} (source : String) (cause : GrammarFault) : Build α :=
  throw (.grammar source cause)

/-- Reads a pattern of a rule; `what` names it. -/
def pattern (source what : String) : Json → Build Regex
  | .str text =>
    match Regex.compile text with
    | .ok r => return r
    | .error e => throw (Fault.ofPattern (.grammar source (.badPattern what text)) e)
  | _ => refuse source (.patternNotText what)

/-- A name, unless it is empty or no text. -/
def name? : Json → Option String
  | .str s => if s = "" then none else some s
  | _ => none

/-- The rule of an object, without the rules inside it. -/
def ruleOf (source : String) (id : Nat) (members : Json.Members) : Build Rule := do
  let rule : Rule := {
    id
    name := name? (members.get "name")
    contentName := name? (members.get "contentName")
    captures := Captures.ofJson (members.get "captures") }
  match members.get? "match", members.get? "begin" with
  | some text, _ => return { rule with matching := some (← pattern source "match" text) }
  | none, some text =>
    let beginning ← pattern source "begin" text
    match members.get "end" with
    | .str ending =>
      let _ ← pattern source "end" (.str (withoutReferences ending))
      return { rule with
        beginning := some beginning
        endSource := some ending
        beginCaptures := Captures.ofJson (members.get "beginCaptures")
        endCaptures := Captures.ofJson (members.get "endCaptures") }
    | _ => refuse source .beginWithoutEnd
  | none, none => return rule

/-- Takes the next place of the table, for an entry of the repository if a key is given. -/
def takePlace (key : Option String) : Build Nat := do
  let t ← get
  let id := t.rules.size
  set { t with
    rules := t.rules.push { id }
    places := match key with
      | some k => (k, id) :: t.places
      | none => t.places }
  return id

/-- Fills a place of the table. -/
def fill (rule : Rule) : Build Unit :=
  modify fun t => { t with rules := t.rules.setIfInBounds rule.id rule }

/-- The rule that a reference stands for: the root, an entry of the repository through `entry`, or
none where it names another grammar. -/
def included (source : String) (entry : String → Build (Option Nat)) : Json → Build (Option Nat)
  | .str reference =>
    if reference = "" then refuse source .includeNotText
    else if reference = "$self" ∨ reference = "$base" then return some 0
    else
      match reference.toList with
      | '#' :: key => entry (String.ofList key)
      | _ => return none
  | _ => refuse source .includeNotText

mutual

/-- Reads a rule and gives its place; `key` is its name in the repository. -/
def rule (source : String) (entry : String → Build (Option Nat)) (key : Option String) :
    Json → Build (Option Nat)
  | .obj members =>
    match Json.Members.get? members "include" with
    | some reference => included source entry reference
    | none => do
      let id ← takePlace key
      let found ← ruleOf source id members
      let inner ← innerOf source entry members
      fill { found with inner }
      return some id
  | _ => refuse source .ruleNotObject

/-- The places of the rules listed among the members of an object. -/
def innerOf (source : String) (entry : String → Build (Option Nat)) :
    List (String × Json) → Build (List Nat)
  | [] => return []
  | (key, value) :: rest =>
    if key = "patterns" then listed source entry value else innerOf source entry rest

/-- The places of the rules in a list; a missing list is empty. -/
def listed (source : String) (entry : String → Build (Option Nat)) : Json → Build (List Nat)
  | .null => return []
  | .arr items => each source entry items
  | _ => refuse source .patternsNotList

/-- The places of rules, one after the other. -/
def each (source : String) (entry : String → Build (Option Nat)) : List Json → Build (List Nat)
  | [] => return []
  | item :: rest => do
    let id ← rule source entry none item
    let ids ← each source entry rest
    return id.toList ++ ids

end

/-- The place of an entry of the repository. `underWay` holds the entries that are being read: to be
led back to one of them without a place of its own is a circle. There are at most `hops` steps from
entry to entry. -/
def entry (source : String) (repository : Json.Members) :
    Nat → List String → String → Build (Option Nat)
  | 0, _, key => refuse source (.circularInclude ("#" ++ key))
  | hops + 1, underWay, key => do
    match (← get).places.lookup key with
    | some id => return some id
    | none =>
      match repository.get? key with
      | none => refuse source (.unknownInclude ("#" ++ key))
      | some value =>
        if underWay.contains key then refuse source (.circularInclude ("#" ++ key))
        let id ← rule source (entry source repository hops (key :: underWay)) (some key) value
        match id with
        | some n => modify fun t => { t with places := (key, n) :: t.places }
        | none => pure ()
        return id

/-- The repository of a grammar; one that is missing or empty holds nothing. -/
def repository (source : String) (members : Json.Members) : Except Fault Json.Members :=
  match (members.get "repository").orElse (.obj []) with
  | .obj entries => .ok entries
  | _ => .error (.grammar source .repositoryNotObject)

/-- The table of a grammar: the root, which lists the grammar's patterns, and all rules it needs. -/
def table (source : String) (members : Json.Members) : Except Fault (Array Rule) := do
  let entries ← repository source members
  let read : Build Unit := do
    let _ ← takePlace none
    let inner ← innerOf source (entry source entries (entries.length + 1) []) members
    fill { id := 0, inner }
  let (_, t) ← read.run {}
  return t.rules

end Build

end Conceal.Grammar
