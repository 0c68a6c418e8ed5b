import Conceal.Session.Grammar
import Conceal.Session.Update

/-!
What happens to a session: another editor, changes in the editor, other settings, and the end.
-/

namespace Conceal.Session

/-- A session without an editor. -/
def start (settings : Json) (languages : String → Option String) (desk : Desk) :
    Except Fault Session := do
  let settings ← Settings.normalize settings
  return { settings, languages, masking.decorations.desk := desk }

/-- Connects the signals of an editor. -/
def connect (name : String) (s : Session) : Session :=
  s.changeEditor name fun e => Signal.all.foldl Editor.connect e

/-- Takes back the connections to an editor. -/
def disconnect (name : String) (s : Session) : Session :=
  s.changeEditor name fun e => Signal.all.foldl Editor.disconnect e

/-- Forgets all decorations of an editor that is gone. -/
def forgetDecorations (s : Session) : Session :=
  { s with masking.decorations := s.masking.decorations.forgetAll }

/-- Lets go of an editor. -/
def release (name : String) (s : Session) : Session :=
  if s.desk.isAlive name then s.disconnect name else s.forgetDecorations

/-- Turns to another editor, or to none. -/
def setEditor (editor : Option String) : Step Session Unit := do
  let s ← get
  if editor = s.editor? then return
  Step.forSome s.editor? fun old => modify (release old)
  onMasking (Masking.onDecorations (Decorations.setHost editor))
  let document ←
    match editor with
    | some name => onDesk (Desk.snapshot name)
    | none => pure none
  modify fun s => { s with
    masking.scopes := s.masking.scopes.setDocument document
    stale := true }
  Step.forSome editor fun name => modify (connect name)
  requestGrammar
  modify schedule

/-- The file was saved or its language changed; either can mean another grammar. -/
def languageMayChange : Step Session Unit := do
  requestGrammar
  modify schedule

/-- The text changed. -/
def textChanged (s : Session) : Session := { s with stale := true }.schedule

/-- A signal of the editor. -/
def receive : Signal → Step Session Unit
  | .textChanged => modify textChanged
  | .saved | .languageChanged => languageMayChange
  | _ => modify schedule

/-- A signal of an editor, for every connection that it has. -/
def hear (name : String) (signal : Signal) : Step Session Unit := do
  let connected := (((← get).desk.editor? name).map Editor.connected).getD []
  (connected.filter (· = signal)).forM receive

/-- Other settings: all decorations are removed, and the next update starts over. -/
def setSettings (settings : Json) : Step Session Unit := do
  let settings ← Step.ofExcept (Settings.normalize settings)
  modify fun s => { s with settings }
  onMasking (Masking.onDecorations Decorations.clear)
  modify fun s => { s with stale := true }.schedule

/-- The end of a session: nothing runs any more, and no mask is left. -/
def shutDown : Step Session Unit := do
  modify fun s => { s with waiting := false, polling := false, pending := [] }
  Step.forSome (← get).editor? fun name => modify (release name)
  onMasking (Masking.onDecorations Decorations.clear)

/-- Does something with the text area of an editor, and hears the signals that it sends. When that
fails the area stays as it is. -/
def edit {α : Type} (name : String)
    (act : TextArea → List Layer → Except Fault (α × TextArea × List Signal)) :
    Step Session (Option (α × List Signal)) := do
  match ((← get).desk.editor? name).bind fun e => e.area?.map fun area => (e, area) with
  | some (e, area) =>
    let (answer, area, signals) ← Step.ofExcept (act area e.canvas.layers)
    modify fun s => s.changeEditor name fun e => { e with content := .typed area }
    signals.forM (hear name)
    return some (answer, signals)
  | none => return none

end Conceal.Session
