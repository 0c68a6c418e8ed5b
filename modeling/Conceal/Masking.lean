import Conceal.Decoration.Cache
import Conceal.LineScopes
import Conceal.Mask.Basic
import Conceal.Mask.Caret
import Conceal.Selection

/-!
Masking: which matches of a pattern are masked, and by which decoration. A match is left alone while
a selection touches it, and when the scope that its mask asks for does not hold at its first
character. `decisions` says for one text what is to be done; `apply` does it on the canvas.
-/

namespace Conceal

/-- A mask on one match. -/
structure Placement where
  /-- The exact text that matched, where it has a replacement of its own. -/
  own : Option (String × Override)
  stretch : Stretch
deriving DecidableEq, Repr

/-- What is decided about a match. -/
inductive Decision where
  | place (p : Placement)
  | notice (n : Notice)
  | fail (f : Fault)
deriving DecidableEq, Repr

namespace Masking

/-- Does a selection touch a match? -/
def touches (start stop : Int) (early : Bool) (selection : Int × Int) : Bool :=
  selection.2 ≥ (if early then start - 1 else start) && selection.1 ≤ stop

/-- Is a match left alone because a selection touches it? -/
def isRevealed (start stop : Int) (selections : List (Int × Int)) (early : Bool) : Bool :=
  selections.any (touches start stop early)

/-- The scope that must hold at a match: that of its own replacement, or else that of the mask. An
empty one is none. -/
def filter? (mask : Mask) (own : Option Override) : Option String :=
  (own.bind Override.scope).filter (· != "") <|> mask.scope.filter (· != "")

/-- Does the token at a place lie within a scope? -/
def holdsAt (tokens : Option (List Token)) (character : Nat) (scope : String) : Bool :=
  match tokens with
  | some tokens => (Token.covering? tokens character).any (·.within scope)
  | none => false

/-- What a pattern and its mask meet in a text. -/
structure Sight where
  document : Document
  text : Array Char
  selections : List (Int × Int)
  early : Bool
  scopes : LineScopes
  mask : Mask

/-- Decides about matches in order. The tokens of a line are found once, at the first match on it.
-/
def decisions (v : Sight) (seen : List (Nat × Option (List Token))) :
    List Regex.Found → List Decision
  | [] => []
  | m :: rest =>
    if isRevealed m.start m.stop v.selections v.early then decisions v seen rest
    else
      let text := Regex.slice v.text m.start m.stop
      let own := v.mask.override? text
      let hover := match own with
        | some o => o.hover
        | none => v.mask.hover
      let place := Decision.place ⟨own.map fun o => (text, o), ⟨m.start, m.stop, hover⟩⟩
      match filter? v.mask own with
      | none => place :: decisions v seen rest
      | some scope =>
        let (line, character) := v.document.positionAt m.start
        match seen.lookup line with
        | some tokens =>
          if holdsAt tokens character scope then place :: decisions v seen rest
          else decisions v seen rest
        | none =>
          match v.scopes.tokens? line with
          | .error fault => [.fail fault]
          | .ok (tokens, notice) =>
            let others := decisions v ((line, tokens) :: seen) rest
            notice.toList.map .notice
              ++ if holdsAt tokens character scope then place :: others else others

end Masking

/-- What masking works with: the decorations, the scopes of the document, and the keys that the
current update has used so far. -/
structure Masking where
  decorations : Decorations := {}
  scopes : LineScopes := {}
  passKeys : Option (List String) := none
  notices : List Notice := []

namespace Masking

/-- Acts on the decorations. -/
def onDecorations {α : Type} (act : Step Decorations α) : Step Masking α :=
  Step.on Masking.decorations (fun m decorations => { m with decorations }) act

/-- Acts on the desk. -/
def onDesk {α : Type} (act : Step Desk α) : Step Masking α := onDecorations (Decorations.onDesk act)

/-- The editor that is masked. -/
def editor? (m : Masking) : Option String := m.decorations.host

/-- Reports a notice. -/
def report (n : Notice) : Step Masking Unit :=
  modify fun m => { m with notices := m.notices ++ [n] }

/-- The key of a placement's decoration. -/
def keyOf (base : String) (p : Placement) : String :=
  match p.own with
  | some (text, _) => Mask.derivedKey base text
  | none => base

/-- Adds a stretch to those of a key. -/
def addStretch : List (String × List Stretch) → String → Stretch → List (String × List Stretch)
  | [], key, s => [(key, [s])]
  | (k, ss) :: rest, key, s =>
    if k = key then (k, ss ++ [s]) :: rest else (k, ss) :: addStretch rest key s

/-- Carries out decisions: collects the stretches of every key, and creates decorations for texts
with a replacement of their own as they come up. -/
def carryOut (base : String) :
    List Decision → List (String × List Stretch) → Step Masking (List (String × List Stretch))
  | [], found => return found
  | .notice n :: rest, found => do
    report n
    carryOut base rest found
  | .fail fault :: _, _ => throw fault
  | .place p :: rest, found => do
    let key := keyOf base p
    if !(found.map (·.1)).contains key then
      if let some (_, o) := p.own then
        let _ ← onDecorations (Decorations.getOrCreate key (Mask.overrideLook o))
    carryOut base rest (addStretch found key p.stretch)

/-- Renders the stretches of keys in order. -/
def renderEach : List (String × List Stretch) → Step Masking Unit
  | [] => return
  | (key, stretches) :: rest => do
    onDecorations (Decorations.render key stretches)
    renderEach rest

/-- Notes keys that are used, where an update is running; answers with all that may stay. -/
def noteKeys (used : List String) : Step Masking (List String) :=
  modifyGet fun m =>
    match m.passKeys with
    | some keys => (keys ++ used, { m with passKeys := some (keys ++ used) })
    | none => (used, m)

/-- Carries out decisions, renders what they give the keys, and removes all decorations that neither
they nor the current update use. Answers with the number of masked matches. -/
def draw (base : String) (decided : List Decision) : Step Masking Nat := do
  let found ← carryOut base decided [(base, [])]
  renderEach (found.drop 1 ++ found.take 1)
  let keep ← noteKeys (found.map (·.1))
  let _ ← onDecorations (Decorations.evictAllExcept keep)
  return (found.flatMap (·.2)).length

/-- Masks the matches of a pattern. -/
def apply (pattern : Pattern) (mask : Mask) (caretStyle : String) : Step Masking Nat := do
  let some editor := (← get).editor? | return 0
  let some document ← onDesk (Desk.snapshot editor) | return 0
  let _ ← onDecorations (Decorations.getOrCreate pattern.source mask.baseLook)
  let ends ← onDesk (Desk.selections editor)
  let text := document.text.toList.toArray
  draw pattern.source (decisions
    { document
      text
      selections := ends.map fun (anchor, active) => orderEnds anchor active
      early := revealsEarly caretStyle
      scopes := (← get).scopes
      mask } [] (pattern.matchesIn text))

/-- Runs an update: decorations that it uses are kept while it runs, and all others are removed at
its end. -/
def update {α : Type} (body : Step Masking α) : Step Masking α := fun m =>
  let whole : Step Masking α := do
    let answer ← body
    let m ← get
    if m.editor?.isSome then
      let _ ← onDecorations (Decorations.evictAllExcept (m.passKeys.getD []))
    return answer
  match whole { m with passKeys := some [] } with
  | .ok answer n => .ok answer { n with passKeys := m.passKeys }
  | .error fault n => .error fault { n with passKeys := m.passKeys }

end Masking

end Conceal
