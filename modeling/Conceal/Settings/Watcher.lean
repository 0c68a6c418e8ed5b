import Conceal.Notice
import Conceal.Settings.Store

/-!
Watching a settings file. A change on disk starts a short delay; after it the file is read again,
and the section is passed on if it differs from the one passed on before. The directory is watched
as well, because a file that is replaced is a new file.
-/

namespace Conceal

/-- Files and directories whose changes are reported, in the order in which they were added. -/
structure Watches where
  files : List String := []
  directories : List String := []
deriving DecidableEq, Repr

/-- All watched paths, files first. -/
def Watches.paths (w : Watches) : List String := w.files ++ w.directories

/-- A watched settings file. -/
structure SettingsWatcher where
  store : SettingsStore
  /-- The section that was passed on last. -/
  current : Json.Members
  watches : Watches := {}
  /-- Is the delay running? -/
  pending : Bool := false

namespace SettingsWatcher

/-- The delay between a change and reading the file again, in milliseconds. -/
def delay : Nat := 150

/-- Adds a path to the watched ones: an existing directory as such, all else as a file. -/
def watch (files : FileTree) (w : Watches) (path : Path) : Watches :=
  if w.paths.contains path.toString then w
  else if files.isDirectory path then { w with directories := w.directories ++ [path.toString] }
  else { w with files := w.files ++ [path.toString] }

/-- Watches the file and its directory, as far as they exist. -/
def syncWatches (w : SettingsWatcher) (files : FileTree) : SettingsWatcher :=
  match w.store.path with
  | none => w
  | some path =>
    let wanted := (if files.isDirectory path.parent then [path.parent] else [])
      ++ (if files.isFile path then [path] else [])
    let missing := wanted.filter fun p => !w.watches.paths.contains p.toString
    { w with watches := missing.foldl (watch files) w.watches }

/-- Starts watching the file of a store. -/
def start (store : SettingsStore) (files : FileTree) : Except Fault SettingsWatcher := do
  let current ← store.normalized
  return ({ store, current : SettingsWatcher }).syncWatches files

/-- Something watched has changed. -/
def changed (w : SettingsWatcher) : SettingsWatcher := { w with pending := true }

/-- The outcome of reading the file again. -/
structure Reloaded where
  watcher : SettingsWatcher
  /-- The section that is passed on, if it differs. -/
  emitted : Option Json.Members := none
  notice : Option Notice := none
  fault : Option Fault := none

/-- Reads the file again. -/
def reload (w : SettingsWatcher) (files : FileTree) : Reloaded :=
  let w := ({ w with pending := false, store := w.store.load files }).syncWatches files
  if w.store.lastFault.isSome then { watcher := w, notice := some .settingsIgnored }
  else
    match w.store.normalized with
    | .error fault => { watcher := w, fault := some fault }
    | .ok updated =>
      if (Json.obj updated).same (.obj w.current) then { watcher := w }
      else
        { watcher := { w with current := updated }
          emitted := some updated
          notice := some .settingsReloaded }

end SettingsWatcher

end Conceal
