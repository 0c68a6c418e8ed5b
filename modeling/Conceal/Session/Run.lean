import Conceal.Session.Events

/-!
Runs of a session: everything that can happen to it and to its editors, as one type of events, and
the session after any number of them. An event that fails is over; what it has done stays done.
-/

namespace Conceal.Session

/-- What can happen to a session and to its editors. -/
inductive Event where
  /-- Another editor becomes the session's editor. -/
  | turnTo (editor : Option String)
  /-- The session's editor tells about a change. -/
  | told (signal : Signal)
  | settingsChanged (settings : Json)
  /-- The pause before an update is over. -/
  | pauseOver
  | delivered (number : Nat) (d : Delivery)
  /-- It is time to look for deliveries. -/
  | polled
  | closed
  /-- An editor shows another document. -/
  | displayed (name : String) (document : Option Document)
  /-- An editor has other selections. -/
  | chosen (name : String) (selections : List (Json × Json))
  /-- An editor asks for another caret style. -/
  | styled (name : String) (caretStyle : Json)
  /-- An editor sends a signal. -/
  | sent (name : String) (signal : Signal)
  /-- Something is done with the text area of an editor: typing, moving the caret, saving. -/
  | worked (name : String)
      (act : TextArea → List Layer → Except Fault (TextArea × List Signal))
  /-- An editor is gone. -/
  | perished (name : String)

/-- What a session does about an event. -/
def handle : Event → Step Session Unit
  | .turnTo editor => setEditor editor
  | .told signal => receive signal
  | .settingsChanged settings => setSettings settings
  | .pauseOver => fire
  | .delivered number d => modify (deliver number d)
  | .polled => modify poll
  | .closed => shutDown
  | .displayed name document => modify fun s => s.changeEditor name (Editor.display document)
  | .chosen name selections => modify fun s => s.changeEditor name (Editor.choose selections)
  | .styled name caretStyle => modify fun s => s.changeEditor name (Editor.restyle caretStyle)
  | .sent name signal => hear name signal
  | .worked name act => do
    let _ ← edit name fun area layers => (act area layers).map fun done => ((), done)
  | .perished name => modify fun s => s.changeEditor name fun e => { e with alive := false }

/-- The session after events. -/
def run (s : Session) (events : List Event) : Session :=
  events.foldl (fun s e => Step.after (handle e) s) s

@[simp] theorem run_nil (s : Session) : s.run [] = s := rfl

@[simp] theorem run_cons (s : Session) (e : Event) (rest : List Event) :
    s.run (e :: rest) = (Step.after (handle e) s).run rest := rfl

theorem run_append (s : Session) (before rest : List Event) :
    s.run (before ++ rest) = (s.run before).run rest := by
  simp [run]

end Conceal.Session
