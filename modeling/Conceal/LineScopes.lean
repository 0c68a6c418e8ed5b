import Conceal.Document
import Conceal.Grammar.Tokenize
import Conceal.Notice

/-!
The scopes of a document, line by line. The state at the end of each line is kept, so that one line
can be tokenized again without those before it. A rebuild starts from the first line; a line that
cannot be tokenized makes the document lose its tokenizer.
-/

namespace Conceal

/-- Whatever splits a line into tokens, given the state after the line before. Two tokenizers of one
serial number are the same one. -/
structure Tokenizer where
  serial : Nat
  scopeName : String
  tokenize : String → Option LineState → Except Fault LineTokens

/-- A grammar as a tokenizer. -/
def Grammar.toTokenizer (g : Grammar) (serial : Nat) : Tokenizer where
  serial
  scopeName := g.scopeName
  tokenize line previous :=
    g.tokenizeLine line (match previous with
      | some s => .state s
      | none => .nothing)

/-- Is the fault a tokenizer's own: a grammar that cannot go on? -/
def Fault.isGrammar : Fault → Bool
  | .grammar _ _ => true
  | _ => false

/-- A document, its tokenizer, and the states at the ends of its first lines. -/
structure LineScopes where
  document : Option Document := none
  tokenizer : Option Tokenizer := none
  states : List LineState := []

namespace LineScopes

/-- The states at the ends of lines, from the state before them, up to the first line that fails. -/
def endStates (t : Tokenizer) : List String → Option LineState → List LineState × Option Fault
  | [], _ => ([], none)
  | line :: rest, previous =>
    match t.tokenize line previous with
    | .ok r =>
      let (states, fault) := endStates t rest (some r.state)
      (r.state :: states, fault)
    | .error e => ([], some e)

/-- The outcome of a rebuild. -/
structure Rebuilt where
  scopes : LineScopes
  notice : Option Notice := none
  fault : Option Fault := none

/-- Forgets the tokenizer and all states. -/
def clearTokenizer (l : LineScopes) : LineScopes := { l with tokenizer := none, states := [] }

/-- Finds the states of all lines anew. When the tokenizer itself fails it is dropped; any other
fault is passed on, with the states found so far. -/
def rebuild (l : LineScopes) : Rebuilt :=
  match l.document, l.tokenizer with
  | some d, some t =>
    match endStates t d.lines none with
    | (states, none) => { scopes := { l with states } }
    | (states, some fault) =>
      if fault.isGrammar then { scopes := l.clearTokenizer, notice := some .grammarDropped }
      else { scopes := { l with states }, fault := some fault }
  | _, _ => { scopes := { l with states := [] } }

/-- The scopes of a document. -/
def ofDocument (document : Option Document) (tokenizer : Option Tokenizer) : Rebuilt :=
  rebuild { document, tokenizer }

/-- Takes another document; the states are those of the old one until the next rebuild. -/
def setDocument (l : LineScopes) (document : Option Document) : LineScopes := { l with document }

/-- Takes another tokenizer. States mean something only to the tokenizer that left them. -/
def setTokenizer (l : LineScopes) (tokenizer : Option Tokenizer) : LineScopes :=
  if tokenizer.map Tokenizer.serial = l.tokenizer.map Tokenizer.serial then { l with tokenizer }
  else { l with tokenizer, states := [] }

/-- The state at the end of a line, where it is known. -/
def endState? (l : LineScopes) (line : Int) : Option LineState :=
  if 0 ≤ line then l.states[line.toNat]? else none

/-- The tokens of a line, and a notice when its tokenizer fails. Without a tokenizer there are
none. -/
def tokens? (l : LineScopes) (line : Int) : Except Fault (Option (List Token) × Option Notice) :=
  match l.tokenizer with
  | none => .ok (none, none)
  | some t => do
    let text ← match l.document with
      | some d =>
        match d.line? line with
        | some s => pure s
        | none => throw .outOfRange
      | none => pure ""
    match t.tokenize text (l.endState? (line - 1)) with
    | .ok r => return (some r.tokens, none)
    | .error e => if e.isGrammar then return (none, some .lineWithoutScopes) else throw e

end LineScopes

end Conceal
