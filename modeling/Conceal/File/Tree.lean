import Conceal.Fault
import Conceal.File.Path
import Conceal.Text.Lines

/-!
Files and directories. Every directory on the way to a file is an entry of its own, so it stays when
the file goes.
-/

namespace Conceal

/-- What a path leads to. -/
inductive FileNode where
  | file (bytes : ByteArray)
  | directory
deriving Inhabited

/-- A tree of files by the names on the way from the root. -/
structure FileTree where
  entries : List (List String × FileNode) := []
  /-- Where relative paths start. -/
  base : Path := ⟨"/", []⟩

namespace FileTree

/-- What is found at the end of a way from the root. -/
def at? (t : FileTree) (names : List String) : Option FileNode :=
  if names.isEmpty then some .directory else t.entries.lookup names

/-- Walks the names of a path, `here` being the way so far, last name first. A way leads only
through directories. -/
def walk (t : FileTree) (here : List String) : List String → Except Fault (List String)
  | [] => .ok here.reverse
  | name :: rest =>
    match t.at? here.reverse with
    | some .directory =>
      if name = ".." then walk t (here.drop 1) rest else walk t (name :: here) rest
    | some (.file _) => .error .notDirectory
    | none => .error .fileNotFound

/-- The way to a path, whether or not there is anything at its end. -/
def locate (t : FileTree) (p : Path) : Except Fault (List String) := t.walk [] (t.base.join p).names

/-- What a path leads to. -/
def find (t : FileTree) (p : Path) : Except Fault FileNode := do
  match t.at? (← t.locate p) with
  | some node => return node
  | none => throw .fileNotFound

/-- Is there anything at a path? -/
def exists? (t : FileTree) (p : Path) : Bool := (t.find p).toOption.isSome

/-- Is there a file at a path? -/
def isFile (t : FileTree) (p : Path) : Bool :=
  match t.find p with
  | .ok (.file _) => true
  | _ => false

/-- Is there a directory at a path? -/
def isDirectory (t : FileTree) (p : Path) : Bool :=
  match t.find p with
  | .ok .directory => true
  | _ => false

/-- The bytes of a file. -/
def read (t : FileTree) (p : Path) : Except Fault ByteArray := do
  match ← t.find p with
  | .file bytes => return bytes
  | .directory => throw .fileIsDirectory

/-- The text of a file. -/
def readText (t : FileTree) (p : Path) : Except Fault String := do
  match Text.ofBytes? (← t.read p) with
  | some s => return s
  | none => throw .notText

/-- Sets what is at the end of a way. -/
def put (t : FileTree) (names : List String) (node : FileNode) : FileTree :=
  { t with entries := (names, node) :: t.entries.filter (·.1 != names) }

/-- Writes a file into a directory that is there. -/
def write (t : FileTree) (p : Path) (bytes : ByteArray) : Except Fault FileTree := do
  let names ← t.locate p
  match t.at? names with
  | some .directory => throw .fileIsDirectory
  | _ => return t.put names (.file bytes)

/-- Makes a directory and all those on the way to it. -/
def makeDirectory (t : FileTree) (p : Path) : FileTree :=
  let names := (t.base.join p).names
  (List.range (names.length + 1)).foldl (fun t n =>
    match t.at? (names.take n) with
    | some _ => t
    | none => t.put (names.take n) .directory) t

/-- Makes a file with all directories on the way to it. -/
def make (t : FileTree) (p : Path) (bytes : ByteArray) : FileTree :=
  (t.makeDirectory p.parent).put (t.base.join p).names (.file bytes)

/-- Removes a file. -/
def remove (t : FileTree) (p : Path) : FileTree :=
  let names := (t.base.join p).names
  { t with entries := t.entries.filter (·.1 != names) }

end FileTree

end Conceal
