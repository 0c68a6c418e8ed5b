import Conceal.Editor.TextArea
import Conceal.Step

/-!
Editors and the desk that they lie on. An editor has a canvas, and a content that either is given or
is typed. The desk keeps the calls that the canvases received and the queries that the editors
answered, over all editors.
-/

namespace Conceal

/-- What an editor holds: a document and selections that are given, or an area for typing. The ends
of given selections may be any values. -/
inductive Content where
  | given (document : Option Document) (selections : List (Json × Json)) (caretStyle : Json)
  | typed (area : TextArea)

/-- An editor. -/
structure Editor where
  content : Content
  canvas : Canvas := {}
  /-- Is the editor still there? -/
  alive : Bool := true
  /-- The signals that it can send. -/
  signals : List Signal := []
  /-- The signals that go to the session, once for every connection. -/
  connected : List Signal := []

namespace Editor

/-- What an editor for typing refuses: decorations whose style cannot be resolved in the colors of
its host. -/
def refusal (palette : Palette) : Call → Option Fault
  | .create _ look =>
    match LayerStyle.ofLook palette look with
    | .ok _ => none
    | .error fault => some fault
  | _ => none

/-- An editor for typing in an area. -/
def typing (area : TextArea := {}) : Editor where
  content := .typed area
  canvas.refuses := refusal area.palette
  signals := Signal.all

/-- The caret style that the editor asks for, as any value. -/
def caretStyle (e : Editor) : Json :=
  match e.content with
  | .given _ _ style => style
  | .typed area => .str area.caretStyle

/-- The area for typing, if there is one. -/
def area? (e : Editor) : Option TextArea :=
  match e.content with
  | .given _ _ _ => none
  | .typed area => some area

/-- The document, and the editor after the snapshot of it. -/
def snapshot (e : Editor) : Option Document × Editor :=
  match e.content with
  | .given document _ _ => (document, e)
  | .typed area => (some area.snapshot.document, { e with content := .typed area.capture })

/-- Reads the ends of selections as whole numbers. -/
def readSelections : List (Json × Json) → Except Fault (List (Int × Int))
  | [] => .ok []
  | (anchor, active) :: rest => do
    let anchor ← anchor.integer
    let active ← active.integer
    return (anchor, active) :: (← readSelections rest)

/-- The ends of the selections, and the editor after they were asked for. -/
def selections (e : Editor) : Except Fault (List (Int × Int)) × Editor :=
  match e.content with
  | .given _ selections _ => (readSelections selections, e)
  | .typed area => (.ok area.selections, { e with content := .typed area.capture })

/-- Shows another document, if what the editor holds is given. -/
def display (document : Option Document) (e : Editor) : Editor :=
  match e.content with
  | .given _ selections style => { e with content := .given document selections style }
  | .typed _ => e

/-- Has other selections, if what the editor holds is given. -/
def choose (selections : List (Json × Json)) (e : Editor) : Editor :=
  match e.content with
  | .given document _ style => { e with content := .given document selections style }
  | .typed _ => e

/-- Asks for another caret style, if what the editor holds is given. -/
def restyle (caretStyle : Json) (e : Editor) : Editor :=
  match e.content with
  | .given document selections _ => { e with content := .given document selections caretStyle }
  | .typed _ => e

/-- Does a call change what is drawn for layers that are there? -/
def redraws (c : Canvas) : Call → Bool
  | .create _ _ => false
  | .set handle _ => c.handles.contains handle
  | .dispose handle => c.handles.contains handle

/-- Receives a call for its canvas. -/
def receive (e : Editor) (call : Call) : Editor × Option Fault :=
  match e.canvas.receive call with
  | (canvas, some fault) => ({ e with canvas }, some fault)
  | (canvas, none) =>
    match e.content with
    | .given _ _ _ => ({ e with canvas }, none)
    | .typed area =>
      let area := if redraws e.canvas call then area.showLayers canvas.layers else area
      ({ e with canvas, content := .typed area }, none)

/-- Connects a signal, if the editor has it. -/
def connect (e : Editor) (signal : Signal) : Editor :=
  if e.signals.contains signal then { e with connected := e.connected ++ [signal] } else e

/-- Takes back one connection of a signal. -/
def disconnect (e : Editor) (signal : Signal) : Editor :=
  if e.signals.contains signal then { e with connected := e.connected.erase signal } else e

end Editor

/-- What an editor can be asked about. -/
inductive Query where
  | document
  | selections
deriving DecidableEq, Repr

/-- The editors by name, with the calls that their canvases received and the queries that they
answered, the newest first. -/
structure Desk where
  editors : List (String × Editor) := []
  calls : List (String × Call) := []
  queries : List (String × Query) := []

namespace Desk

/-- The editor of a name. -/
def editor? (d : Desk) (name : String) : Option Editor := d.editors.lookup name

/-- Changes the editor of a name. -/
def change (d : Desk) (name : String) (f : Editor → Editor) : Desk :=
  { d with editors := d.editors.map fun (n, e) => if n = name then (n, f e) else (n, e) }

/-- Is the editor of a name still there? -/
def isAlive (d : Desk) (name : String) : Bool := (d.editor? name).any Editor.alive

/-- Sends a call to the canvas of an editor. -/
def send (name : String) (call : Call) : Step Desk Unit := fun d =>
  match d.editor? name with
  | none => .ok () d
  | some e =>
    let (e, refusal) := e.receive call
    let d := { d.change name fun _ => e with calls := (name, call) :: d.calls }
    match refusal with
    | some fault => .error fault d
    | none => .ok () d

/-- Creates a decoration; the handle is missing where the editor keeps it to itself. -/
def create (name : String) (look : Look) : Step Desk (Option Nat) := do
  let handle := ((← get).editor? name).bind fun e => e.canvas.nextHandle
  send name (.create handle look)
  return handle

/-- Notes that an editor was asked. -/
def note (d : Desk) (name : String) (q : Query) : Desk :=
  { d with queries := (name, q) :: d.queries }

/-- The document of an editor. -/
def snapshot (name : String) : Step Desk (Option Document) := fun d =>
  match d.editor? name with
  | none => .ok none d
  | some e =>
    let (document, e) := e.snapshot
    .ok document ((d.note name .document).change name fun _ => e)

/-- The ends of the selections of an editor. -/
def selections (name : String) : Step Desk (List (Int × Int)) := fun d =>
  match d.editor? name with
  | none => .ok [] d
  | some e =>
    let d := d.note name .selections
    match e.selections with
    | (.ok ends, e) => .ok ends (d.change name fun _ => e)
    | (.error fault, e) => .error fault (d.change name fun _ => e)

end Desk

end Conceal
