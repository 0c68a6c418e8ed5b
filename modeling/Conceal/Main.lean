import Conceal.Editor.Painting
import Conceal.Json.Printer
import Conceal.Packaged
import Conceal.Window

/-!
The program: opens a file as the command line says and prints it with its masks applied. Everything
is decided in `Conceal.Window`; here files are read and lines are written.
-/

namespace Conceal.Program

/-- Where the packaged grammars are in the tree of files. -/
def packagedDirectory : Path := Path.ofString "/packaged/grammars"

/-- A tree with the packaged files. -/
def packagedFiles (base : Path) : FileTree :=
  Packaged.files.foldl (fun (t : FileTree) (name, value) =>
    t.make (packagedDirectory.join (Path.ofString name)) (Text.toBytes value.print)) { base }

/-- Reads a file into a tree, if it is there. -/
def addFile (files : FileTree) (path : Option String) : IO FileTree := do
  match path with
  | none => return files
  | some path =>
    try
      return files.make (Path.ofString path) (← IO.FS.readBinFile path)
    catch _ => return files

/-- The line that says how the program is called. -/
def usage : String :=
  "usage: symbol-masks [-h] [--settings PATH] [--cursor-style STYLE] [--verbose] [file]"

/-- Opens the window, runs one update and prints the text. -/
def showFile (c : CommandLine) : IO UInt32 := do
  let base := Path.ofString (← IO.currentDir).toString
  let home := Path.ofString ((← IO.getEnv "HOME").getD "/")
  let expanded := c.file.bind fun file =>
    (Window.expandHome home (Path.ofString file)).toOption.map Path.toString
  let files ← addFile (← addFile (packagedFiles base) c.settings) expanded
  let manifest := packagedDirectory.join (Path.ofString Packaged.manifestName)
  match Window.ofCommandLine c files home manifest with
  | .error fault =>
    IO.eprintln ((fault.message?).getD "the file cannot be opened")
    return 1
  | .ok w =>
    let w := Step.after Window.fire w.pump
    for notice in w.workbench.session.masking.notices do
      IO.eprintln (notice.level ++ " " ++ notice.wording)
    IO.println w.title
    IO.println (w.area.maskedText w.layers)
    return 0

/-- Runs the program with the words of its command line. -/
def run (words : List String) : IO UInt32 := do
  match CommandLine.read words with
  | .ok c => showFile c
  | .error (.exit code) =>
    IO.eprintln usage
    return code.toUInt32
  | .error _ => return 1

end Conceal.Program

/-- Runs the program. -/
def main (words : List String) : IO UInt32 := Conceal.Program.run words
