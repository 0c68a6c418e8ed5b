import Conceal.Grammar.Basic

/-!
Tokenizing one line. The earliest match wins: that of the innermost block's end, or else of the
first rule that can match inside the block. Text between matches has the scopes of the block's
content.
-/

namespace Conceal

/-- The tokens of a line and the state after it. -/
structure LineTokens where
  tokens : List Token
  state : LineState
deriving DecidableEq, Repr, Inhabited

namespace Grammar

/-- What a match means: the end of the innermost block, or a rule. -/
inductive MatchKind where
  | ending
  | rule
deriving DecidableEq, Repr

/-- The match that comes next. -/
structure Choice where
  kind : MatchKind
  rule : Rule
  found : Regex.Found
  /-- How many groups the pattern has. -/
  groupCount : Nat
deriving Repr

/-- Adds a token unless it is empty. -/
def emit (tokens : Array Token) (start stop : Nat) (scopes : List String) : Array Token :=
  if stop > start then tokens.push ⟨start, stop, scopes⟩ else tokens

/-- The name of the whole match, if it has one. -/
def wholeName (captures : Captures) : List String :=
  match captures.lookup 0 with
  | some name => if name = "" then [] else [name]
  | none => []

/-- The stretches of named groups that are not empty, in the order of the names' list. Asking for a
group with a negative number fails. -/
def groupSpans (m : Regex.Found) (groupCount : Nat) :
    Captures → Except Fault (List (Nat × Nat × String))
  | [] => .ok []
  | (group, name) :: rest =>
    if group = 0 ∨ group > groupCount then groupSpans m groupCount rest
    else if group < 0 then .error .outOfRange
    else do
      let later ← groupSpans m groupCount rest
      match m.span? group.toNat with
      | some (a, b) => return if b ≤ a then later else (a, b, name) :: later
      | none => return later

/-- Ascending by start, then by end, then by name. -/
def spanLe (a b : Nat × Nat × String) : Bool :=
  a.1 < b.1 || (a.1 == b.1 && (a.2.1 < b.2.1 || (a.2.1 == b.2.1 && a.2.2 ≤ b.2.2)))

/-- Adds the tokens of named groups from `cursor` on; one that starts before the end of another is
left out. Gives the end of the last one as well. -/
def emitSpans (scopes : List String) :
    List (Nat × Nat × String) → Nat → Array Token → Nat × Array Token
  | [], cursor, tokens => (cursor, tokens)
  | (a, b, name) :: rest, cursor, tokens =>
    if a < cursor then emitSpans scopes rest cursor tokens
    else
      let tokens := emit tokens cursor a scopes
      emitSpans scopes rest b (emit tokens a b (scopes ++ [name]))

/-- Adds the tokens of a match, with the names that its groups are given. -/
def emitMatch (tokens : Array Token) (m : Regex.Found) (groupCount : Nat) (scopes : List String)
    (captures : Captures) : Except Fault (Array Token) := do
  let scopes := scopes ++ wholeName captures
  let spans ← groupSpans m groupCount captures
  let (cursor, tokens) := emitSpans scopes (spans.mergeSort spanLe) m.start tokens
  return emit tokens cursor m.stop scopes

/-- The text of a group for a reference to it, made safe for a pattern; a group that is missing or
took no part gives nothing. -/
def referenceText (text : Array Char) (m : Regex.Found) (ds : List Nat) :
    Except Fault (List Char) :=
  if ds.length > Number.maxDigits then .error .malformed
  else
    match m.span? (Number.digitsValue ds) with
    | some (a, b) => .ok (Regex.escape (text.extract a b).toList)
    | none => .ok []

/-- The pattern that ends a block, given the match that opened it. -/
def resolveEnd (text : Array Char) (m : Regex.Found) (rule : Rule) : Except Fault String := do
  let source := (rule.endSource.getD "").toList
  return String.ofList (← replaceReferences (referenceText text m) 0 source)

/-- Reads the pattern that ends a block. -/
def endPattern (g : Grammar) (source : String) : Except Fault Regex :=
  (Regex.compile source).mapError (Fault.ofPattern (.grammar g.source (.badEndPattern source)))

/-- Does a match start before the best one so far, if there is one? -/
def improves (m : Regex.Found) : Option Choice → Bool
  | none => true
  | some best => m.start < best.found.start

/-- The first of the candidates' matches, unless `best` starts no later. Looking stops at a match
right at `pos`. -/
def firstCandidate (g : Grammar) (text : Array Char) (pos : Nat) : List Nat → Option Choice →
    Option Choice
  | [], best => best
  | id :: rest, best =>
    match g.rules[id]? with
    | none => firstCandidate g text pos rest best
    | some rule =>
      match rule.pattern? with
      | none => firstCandidate g text pos rest best
      | some pattern =>
        match pattern.search? text pos with
        | none => firstCandidate g text pos rest best
        | some m =>
          if improves m best then
            let choice : Choice := ⟨.rule, rule, m, pattern.groupCount⟩
            if m.start = pos then some choice else firstCandidate g text pos rest (some choice)
          else firstCandidate g text pos rest best

/-- The match of the innermost block's end. -/
def endChoice? (g : Grammar) (text : Array Char) (pos : Nat) (frame : Frame) :
    Except Fault (Option Choice) :=
  match frame.endSource, g.rules[frame.rule]? with
  | some source, some rule => do
    let pattern ← endPattern g source
    return (pattern.search? text pos).map fun m => ⟨.ending, rule, m, pattern.groupCount⟩
  | _, _ => .ok none

/-- The match that comes next inside a block. -/
def nextMatch (g : Grammar) (text : Array Char) (pos : Nat) (frame : Frame) :
    Except Fault (Option Choice) := do
  let ending ← endChoice? g text pos frame
  match ending with
  | some choice =>
    if choice.found.start = pos then return ending
    else return firstCandidate g text pos (g.candidates.getD frame.rule []) ending
  | none => return firstCandidate g text pos (g.candidates.getD frame.rule []) none

/-- Names if there are any, else the alternative. -/
def orCaptures (captures alternative : Captures) : Captures :=
  if captures.isEmpty then alternative else captures

/-- The scan of a line: how far it has come, the tokens so far, the open blocks, and the empty
matches that have been made. -/
structure Scan where
  pos : Nat
  tokens : Array Token
  state : LineState
  emptySeen : List (Nat × MatchKind × Nat)

/-- Where the scan of a line starts. -/
def Scan.start (state : LineState) : Scan := ⟨0, #[], state, []⟩

/-- The names that a match gives to its groups. -/
def Choice.captures (c : Choice) : Captures :=
  match c.kind with
  | .ending => orCaptures c.rule.endCaptures c.rule.captures
  | .rule =>
    if c.rule.beginning.isSome then orCaptures c.rule.beginCaptures c.rule.captures
    else c.rule.captures

/-- The scopes of a match inside a block. -/
def Choice.scopes (c : Choice) (frame : Frame) : List String :=
  match c.kind with
  | .ending => frame.scopes
  | .rule => frame.contentScopes ++ c.rule.name.toList

/-- The open blocks after a match inside a block. -/
def Choice.stateAfter (c : Choice) (text : Array Char) (frame : Frame) (state : LineState) :
    Except Fault LineState :=
  match c.kind with
  | .ending => .ok state.pop
  | .rule =>
    if c.rule.beginning.isSome then do
      let scopes := c.scopes frame
      let ending ← resolveEnd text c.found c.rule
      return state.push ⟨c.rule.id, scopes, scopes ++ c.rule.contentName.toList, some ending⟩
    else .ok state

/-- Is a match empty? -/
def Choice.isEmpty (c : Choice) : Bool := c.found.start == c.found.stop

/-- What is remembered about an empty match. -/
def Choice.marker (c : Choice) : Nat × MatchKind × Nat := (c.found.start, c.kind, c.rule.id)

/-- Takes a match: adds its tokens and opens or closes a block. -/
def take (text : Array Char) (choice : Choice) (frame : Frame) (scan : Scan) :
    Except Fault Scan := do
  let m := choice.found
  let tokens := emit scan.tokens scan.pos m.start frame.contentScopes
  let tokens ← emitMatch tokens m choice.groupCount (choice.scopes frame) choice.captures
  let state ← choice.stateAfter text frame scan.state
  return {
    pos := m.stop
    tokens
    state
    emptySeen := if choice.isEmpty then choice.marker :: scan.emptySeen else scan.emptySeen }

/-- What the scan of a line does next. -/
inductive Move where
  /-- Nothing matches any more. -/
  | rest
  /-- What stands before a place is content. -/
  | skip (stop : Nat)
  | take (choice : Choice)

/-- What comes next inside a block. An empty match that has been made before takes one character of
content instead, so that the scan goes on. -/
def Scan.move (g : Grammar) (text : Array Char) (scan : Scan) (frame : Frame) :
    Except Fault Move := do
  match ← nextMatch g text scan.pos frame with
  | none => return .rest
  | some choice =>
    if choice.isEmpty && scan.emptySeen.contains choice.marker then
      return if choice.found.start ≥ text.size then .rest else .skip (choice.found.start + 1)
    else return .take choice

/-- One step of the scan, unless it is over. -/
def Scan.step (g : Grammar) (text : Array Char) (scan : Scan) : Except Fault (Option Scan) :=
  match scan.state.top? with
  | none => .ok none
  | some frame => do
    match ← scan.move g text frame with
    | .rest => return none
    | .skip stop =>
      let tokens := emit scan.tokens scan.pos stop frame.contentScopes
      return some { scan with pos := stop, tokens }
    | .take choice => return some (← take text choice frame scan)

/-- Scans a line until nothing matches any more. -/
def scanLine (g : Grammar) (text : Array Char) : Nat → Scan → Except Fault Scan
  | 0, scan => .ok scan
  | fuel + 1, scan => do
    match ← scan.step g text with
    | none => return scan
    | some next => scanLine g text fuel next

/-- Enough steps for any line: each step moves forward or makes an empty match for the first time.
-/
def scanFuel (g : Grammar) (length : Nat) : Nat := (length + 1) * (2 * g.rules.size + 2) + 1

/-- Closes the scan of a line: the rest is content, and an empty line has one empty token. -/
def Scan.finish (scan : Scan) (length : Nat) : LineTokens :=
  let scopes := (scan.state.top?.map Frame.contentScopes).getD []
  let tokens := emit scan.tokens scan.pos length scopes
  ⟨if tokens.isEmpty then [⟨0, length, scopes⟩] else tokens.toList, scan.state⟩

/-- The state that a line starts in. -/
inductive Previous where
  /-- Nothing came before. -/
  | nothing
  | state (s : LineState)
  /-- Something that is no state. -/
  | other (value : Json)

/-- The state that tokenizing starts from, unless the grammar cannot have left it. -/
def startState (g : Grammar) : Previous → Except Fault LineState
  | .nothing => .ok g.initialState
  | .state s => if g.owns s then .ok s else .error (.grammar g.source (.foreignState s.shown))
  | .other value => .error (.grammar g.source (.foreignState value.literal))

/-- Tokenizes a line, given the state after the line before it. -/
def tokenizeLine (g : Grammar) (line : String) (previous : Previous := .nothing) :
    Except Fault LineTokens := do
  let state ← startState g previous
  let text := line.toList.toArray
  let scan ← scanLine g text (scanFuel g text.size) (.start state)
  return scan.finish text.size

end Grammar

end Conceal
