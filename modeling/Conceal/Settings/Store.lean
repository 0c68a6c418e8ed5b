import Conceal.File.Tree
import Conceal.Settings.Basic

/-!
The settings file. Loading takes the section of the file as a whole or, when the file cannot be
used, keeps the section as it was and says why. A missing file counts as one without a section.
-/

namespace Conceal

/-- Why a settings file cannot be used. -/
inductive SettingsFault where
  /-- The file cannot be read, or it is not in the notation of values. -/
  | unreadable
  | rootNotObject (path kind : String)
  | sectionNotObject (path kind : String)
deriving DecidableEq, Repr

/-- The message of a fault of a settings file. -/
def SettingsFault.message : SettingsFault → String
  | .unreadable => detail
  | .rootNotObject path kind => s!"Settings root in '{path}' must be a JSON object, found {kind}."
  | .sectionNotObject path kind =>
    s!"'{Settings.sectionKey}' in '{path}' must be a JSON object, found {kind}."

/-- A settings file, if there is one, with what was last read from it. -/
structure SettingsStore where
  path : Option Path := none
  /-- The section in effect. -/
  loaded : Json.Members := []
  lastFault : Option SettingsFault := none

namespace SettingsStore

/-- Does the store have a file? -/
def persistent (s : SettingsStore) : Bool := s.path.isSome

/-- All that the store holds. -/
def data (s : SettingsStore) : Json := .obj [(Settings.sectionKey, .obj s.loaded)]

/-- The section in a file's value. -/
def sectionOf (path : String) : Json → Except SettingsFault Json.Members
  | .obj members =>
    match (Json.Members.get? members Settings.sectionKey).getD (.obj []) with
    | .obj found => .ok found
    | other => .error (.sectionNotObject path other.kindName)
  | other => .error (.rootNotObject path other.kindName)

/-- The section in the file at a path; a missing file has an empty one. -/
def readSection (files : FileTree) (path : Path) : Except SettingsFault Json.Members :=
  if files.exists? path then
    match files.readText path with
    | .ok text =>
      match Json.parse text with
      | .ok value => sectionOf path.toString value
      | .error _ => .error .unreadable
    | .error _ => .error .unreadable
  else .ok []

/-- Reads the file again. -/
def load (s : SettingsStore) (files : FileTree) : SettingsStore :=
  match s.path with
  | none => { s with loaded := [], lastFault := none }
  | some path =>
    match readSection files path with
    | .ok found => { s with loaded := found, lastFault := none }
    | .error fault => { s with lastFault := some fault }

/-- The value at a path of keys. -/
def get (s : SettingsStore) (path : String) (default : Json := .null) : Json :=
  Settings.get s.data path default

/-- The section in effect, merged over the defaults. -/
def normalized (s : SettingsStore) : Except Fault Json.Members := Settings.normalize (.obj s.loaded)

end SettingsStore

end Conceal
