import Conceal.Grammar.Rule
import Conceal.Grammar.State
import Conceal.Grammar.Token

/-!
Grammars: a table of rules, a scope for everything, and for each rule the rules that can match
inside it. Lists of rules are looked through, each once, so lists that hold each other do no harm.
-/

namespace Conceal

/-- A grammar, ready to tokenize lines. -/
structure Grammar where
  scopeName : String
  name : String
  /-- Where the grammar comes from, for messages. -/
  source : String
  rules : Array Grammar.Rule
  /-- For every rule the places of the rules to look for inside it, in order. -/
  candidates : Array (List Nat)
deriving Repr

namespace Grammar

/-- Follows the places in a list: rules with a pattern are found, lists that have not been visited
are followed in turn. Gives the visited places and the places found. -/
def follow (rules : Array Rule) : Nat → List Nat → List Nat × List Nat → List Nat × List Nat
  | 0, _, acc => acc
  | fuel + 1, ids, acc =>
    ids.foldl (fun (visited, found) id =>
      match rules[id]? with
      | none => (visited, found)
      | some rule =>
        if rule.pattern?.isSome then (visited, found ++ [id])
        else if visited.contains id then (visited, found)
        else follow rules fuel rule.inner (id :: visited, found)) acc

/-- The places of the rules to look for inside a rule, in order. -/
def candidatesOf (rules : Array Rule) (id : Nat) : List Nat :=
  match rules[id]? with
  | some rule => (follow rules (rules.size + 1) rule.inner ([id], [])).2
  | none => []

/-- A grammar from its table of rules. -/
def ofRules (scopeName name source : String) (rules : Array Rule) : Grammar where
  scopeName
  name
  source
  rules
  candidates := ((List.range rules.size).map (candidatesOf rules)).toArray

/-- Reads a grammar from its description. -/
def ofMembers (source : String) (members : Json.Members) : Except Fault Grammar :=
  match members.get "scopeName" with
  | .str s =>
    let scopeName := Text.trim s
    if scopeName = "" then .error (.grammar source .noScopeName)
    else do
      let rules ← Build.table source members
      return ofRules scopeName ((members.get "name").orElse (.str scopeName)).text source rules
  | _ => .error (.grammar source .noScopeName)

/-- Where a grammar comes from when nothing else is known. -/
def anonymous : String := "<grammar>"

/-- Reads a grammar from its description, or from a text that holds one. -/
def ofJson (source : String) (raw : Json) : Except Fault Grammar :=
  match raw with
  | .str text =>
    match Json.parse text with
    | .ok (.obj members) => ofMembers source members
    | .ok _ => .error (.grammar source .rootNotObject)
    | .error .malformed => .error (.grammar source .notJson)
    | .error .tooManyDigits => .error .malformed
  | .obj members => ofMembers source members
  | _ => .error (.grammar source .rootNotObject)

/-- A grammar as messages show it. -/
def shown (g : Grammar) : String := "RegexGrammar(" ++ Text.quoted g.scopeName ++ ")"

/-- The frame of the root, which is open at the start and never closed. -/
def initialFrame (g : Grammar) : Frame := ⟨0, [g.scopeName], [g.scopeName], none⟩

/-- The state before the first line. -/
def initialState (g : Grammar) : LineState := ⟨[g.initialFrame]⟩

/-- Could the grammar have left this state? Its outermost frame is the root's, and all frames belong
to rules of the table. -/
def owns (g : Grammar) (s : LineState) : Bool :=
  s.frames.head? == some g.initialFrame && s.frames.all fun f => f.rule < g.rules.size

end Grammar

end Conceal
