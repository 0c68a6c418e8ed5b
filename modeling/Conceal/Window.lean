import Conceal.CommandLine
import Conceal.Settings.Watcher
import Conceal.Workbench

/-!
The program's window: one editor with its session, opened as a command line says, and the settings
file that is watched while the window is open. A caret style on the command line overrides the
settings.
-/

namespace Conceal

/-- The window of the program. -/
structure Window where
  title : String
  workbench : Workbench
  watcher : Option SettingsWatcher := none
  /-- The caret style of the command line. -/
  caretStyle : Option String := none

namespace Window

/-- The name of the program. -/
def programName : String := "Symbol Masks"

/-- The name of the window's editor. -/
def editorName : String := "main"

/-- The title of a window for a file. -/
def titleFor (file : Option String) : String :=
  let name := match file with
    | some file => (Path.ofString file).name
    | none => "untitled"
  programName ++ " [" ++ name ++ "]"

/-- A text that says something. -/
def nonEmpty (s : Option String) : Option String := s.filter (· != "")

/-- The path with the home directory in the place of a leading tilde. Only one home directory is
known, so a tilde before a name leads nowhere. -/
def expandHome (home : Path) (p : Path) : Except Fault Path :=
  match p.root, p.names with
  | "", "~" :: names => .ok { home with names := home.names ++ names }
  | "", name :: _ => if name.startsWith "~" then .error .noHome else .ok p
  | _, _ => .ok p

/-- Overrides the caret style of a section. -/
def withCaretStyle (style : Option String) (settings : Json.Members) : Json.Members :=
  match style with
  | some s => settings.insert "cursor_style" (.str s)
  | none => settings

/-- The text area for a file: with its text if the file is there, else only with its path. -/
def openFile (files : FileTree) (path : Path) (area : TextArea) : Except Fault TextArea :=
  if files.isFile path then (area.load files path).map (·.1)
  else .ok (area.setFilePath (some path.toString)).1

/-- The editor of a window. -/
def editorFor (files : FileTree) (home : Path) (file : Option String) (settings : Json.Members) :
    Except Fault Editor := do
  let area := ({} : TextArea).setCaretStyle (settings.get "cursor_style")
  let area ← match file with
    | some file => openFile files (← expandHome home (Path.ofString file)) area
    | none => pure area
  return Editor.typing area

/-- Opens a window as a command line says. -/
def ofCommandLine (c : CommandLine) (files : FileTree) (home manifest : Path) :
    Except Fault Window := do
  let file := nonEmpty c.file
  let store := ({ path := (nonEmpty c.settings).map Path.ofString : SettingsStore }).load files
  let settings := withCaretStyle c.caretStyle (← store.normalized)
  let editor ← editorFor files home file settings
  let registry ← Registry.ofManifest files manifest
  let workbench ←
    Workbench.start (.obj settings) registry files { editors := [(editorName, editor)] }
  let session := Step.after (Session.setEditor (some editorName)) workbench.session
  let notices := if store.lastFault.isSome then [.settingsUnread] else []
  let watcher ← if store.persistent then (SettingsWatcher.start store files).map some else pure none
  return {
    title := titleFor file
    workbench := { workbench with
      session := { session with masking.notices := notices ++ session.masking.notices } }
    watcher
    caretStyle := c.caretStyle }

/-- Acts on the session. -/
def onSession {α : Type} (act : Step Session α) : Step Window α :=
  Step.on (·.workbench.session) (fun w session => { w with workbench.session := session }) act

/-- The text area of the window. -/
def area (w : Window) : TextArea :=
  ((w.workbench.session.desk.editor? editorName).bind Editor.area?).getD {}

/-- The decorations in the window. -/
def layers (w : Window) : List Layer :=
  ((w.workbench.session.desk.editor? editorName).map (·.canvas.layers)).getD []

/-- Moves the caret. -/
def moveCaret (position : Int) : Step Window Unit := do
  let _ ← onSession (Session.edit editorName
    fun a _ => .ok ((), a.select position position))

/-- A watched file or directory has changed. -/
def fileChanged (w : Window) : Window := { w with watcher := w.watcher.map SettingsWatcher.changed }

/-- Takes over settings that were read again. -/
def applySettings (settings : Json.Members) : Step Window Unit := do
  let settings := withCaretStyle (← get).caretStyle settings
  let _ ← onSession (Session.edit editorName
    fun a _ => .ok ((), a.setCaretStyle (settings.get "cursor_style"), []))
  onSession (Session.setSettings (.obj settings))

/-- Reads the settings file again, if a change of it was noticed. -/
def reloadSettings : Step Window Unit := do
  let w ← get
  match w.watcher with
  | some watcher =>
    if watcher.pending then
      let r := watcher.reload w.workbench.files
      set { w with watcher := some r.watcher }
      Step.forSome r.notice fun n => onSession (Session.onMasking (Masking.report n))
      Step.forSome r.fault throw
      Step.forSome r.emitted applySettings
  | none => return

/-- The delays are over: that before an update, and that before the settings file is read again. -/
def fire : Step Window Unit := do
  onSession Session.fire
  reloadSettings

/-- Grammars are loaded and taken up. -/
def pump (w : Window) : Window := { w with workbench := w.workbench.pump }

/-- The intervals of the timers in milliseconds. -/
def intervals (w : Window) : List Int :=
  [w.workbench.session.pause, Session.pollInterval]
    ++ if w.watcher.isSome then [(SettingsWatcher.delay : Int)] else []

end Window

end Conceal
