import Conceal.Registry
import Conceal.Session.Events

/-!
A session at work: with the files and the registry that its grammars come from. Grammars are read
after the session has asked for them, and are taken up when it next looks for deliveries.
-/

namespace Conceal

/-- A session with the registry and the files that it works with. -/
structure Workbench where
  session : Session
  registry : Registry := {}
  files : FileTree := {}

namespace Workbench

/-- Acts on the session. -/
def onSession {α : Type} (act : Step Session α) : Step Workbench α :=
  Step.on Workbench.session (fun w session => { w with session }) act

/-- What came of loading a grammar. -/
def deliveryOf : Except Fault (Option Loaded) → Delivery
  | .ok (some l) => .found l.tokenizer
  | .ok none => .missing
  | .error _ => .failed

/-- Loads one grammar for the session. -/
def serve (w : Workbench) (number : Nat) (scopeName : String) : Workbench :=
  let (result, registry) := w.registry.load w.files scopeName
  { w with registry, session := w.session.deliver number (deliveryOf result) }

/-- Loads all grammars that the session has asked for. -/
def serveAll (w : Workbench) : Workbench :=
  let (asked, session) := w.session.takeAsked
  asked.foldl (fun w (number, scopeName) => w.serve number scopeName) { w with session }

/-- The grammars are loaded, and the session looks for deliveries. -/
def pump (w : Workbench) : Workbench :=
  let w := w.serveAll
  { w with session := w.session.poll }

/-- A workbench without an editor. -/
def start (settings : Json) (registry : Registry) (files : FileTree) (desk : Desk) :
    Except Fault Workbench := do
  let languages (id : String) : Option String := registry.scopeName? (.str id)
  return { session := ← Session.start settings languages desk, registry, files }

end Workbench

end Conceal
