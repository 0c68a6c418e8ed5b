import Conceal.Fault
import Conceal.Mask.Caret
import Conceal.Unicode.Decimal

/-!
The command line: one file, a few options, and whatever else there is, which is passed on. A long
option may be cut short as long as it stays clear which one is meant. What follows a double hyphen
is no option. The first word that is wrong, or that asks for help, ends the program.
-/

namespace Conceal

/-- What a command line says. -/
structure CommandLine where
  file : Option String := none
  settings : Option String := none
  caretStyle : Option String := none
  verbose : Bool := false
  /-- The words that are passed on. -/
  rest : List String := []
deriving DecidableEq, Repr

namespace CommandLine

/-- An option. -/
inductive Flag where
  | help
  | settings
  | caretStyle
  | verbose
deriving DecidableEq, Repr

/-- A word of the command line by its form. -/
inductive Word where
  | value (s : String)
  /-- The double hyphen. -/
  | separator
  /-- An option, with a value after an equals sign if it has one. -/
  | flag (f : Flag) (value : Option String)
  /-- The short option for help, with characters after it. -/
  | shortHelp (afterEquals : Bool) (tail : List Char)
  /-- An option that is not known here. -/
  | foreign (s : String)
deriving DecidableEq, Repr

/-- The exit code for a command line that is wrong. -/
def wrong : Fault := .exit 2

/-- The long options by name. -/
def longFlags : List (String × Flag) :=
  [("--help", .help), ("--settings", .settings), ("--cursor-style", .caretStyle),
    ("--verbose", .verbose)]

/-- Does a word look like a negative number? A line feed may follow. -/
def isNegativeNumber (cs : List Char) : Bool :=
  let isDigit (c : Char) : Bool := Unicode.isDecimal c.toNat
  match cs with
  | '-' :: body =>
    let body := if body.getLast? = some '\n' then body.dropLast else body
    let (whole, rest) := body.span isDigit
    match rest with
    | [] => !whole.isEmpty
    | '.' :: places => !places.isEmpty && places.all isDigit
    | _ => false
  | _ => false

/-- The form of a word that is a hyphen with more after it, unless it is an option of this program.
-/
def otherWord (s : String) : Word :=
  if isNegativeNumber s.toList || s.toList.contains ' ' then .value s else .foreign s

/-- The form of a word that starts with two hyphens. -/
def longWord (s : String) : Except Fault Word :=
  let (name, value) := match Text.cutAt? '=' s with
    | some (name, value) => (name, some value)
    | none => (s, none)
  match longFlags.lookup name with
  | some f => .ok (.flag f value)
  | none =>
    match longFlags.filter fun (n, _) => Text.beginsWith name.toList n.toList with
    | [(_, f)] => .ok (.flag f value)
    | [] => .ok (otherWord s)
    | _ => .error wrong

/-- The form of a word. -/
def wordOf (s : String) : Except Fault Word :=
  match s.toList with
  | '-' :: '-' :: _ => longWord s
  | ['-', 'h'] => .ok (.flag .help none)
  | '-' :: 'h' :: '=' :: tail => .ok (.shortHelp true tail)
  | '-' :: 'h' :: tail => .ok (.shortHelp false tail)
  | '-' :: _ :: _ => .ok (otherWord s)
  | _ => .ok (.value s)

/-- The forms of all words. -/
def wordsOf : List String → Except Fault (List Word)
  | [] => .ok []
  | s :: rest =>
    if s = "--" then .ok (.separator :: rest.map .value)
    else do
      let word ← wordOf s
      return word :: (← wordsOf rest)

/-- How the program ends for the short option for help with characters after it: with help, if they
are more short options. -/
def shortHelpExit : Bool → List Char → Fault
  | true, _ => wrong
  | false, [] => wrong
  | false, '-' :: _ => wrong
  | false, ['h'] => .exit 0
  | false, 'h' :: '=' :: tail => shortHelpExit true tail
  | false, 'h' :: tail => shortHelpExit false tail
  | false, _ => .exit 0

/-- Sets an option that takes a value. -/
def setFlag (c : CommandLine) (f : Flag) (value : String) : Except Fault CommandLine :=
  match f with
  | .settings => .ok { c with settings := some value }
  | .caretStyle =>
    if caretStyles.contains value then .ok { c with caretStyle := some value } else .error wrong
  | _ => .error wrong

/-- Passes a word on. -/
def pass (c : CommandLine) (s : String) : CommandLine := { c with rest := c.rest ++ [s] }

/-- Takes words in order; `wanted` says that the file is still to come. -/
def take (wanted : Bool) : List Word → CommandLine → Except Fault CommandLine
  | [], c => .ok c
  | .value s :: rest, c =>
    if wanted then
      match rest with
      | .separator :: more => take false more { c with file := some s }
      | rest => take false rest { c with file := some s }
    else take false rest (c.pass s)
  | .separator :: rest, c =>
    if wanted then
      match rest with
      | .value s :: more => take false more { c with file := some s }
      | rest => take false rest c
    else take false rest (c.pass "--")
  | .foreign s :: rest, c => take wanted rest (c.pass s)
  | .shortHelp afterEquals tail :: _, _ => .error (shortHelpExit afterEquals tail)
  | .flag .help none :: _, _ => .error (.exit 0)
  | .flag .verbose none :: rest, c => take wanted rest { c with verbose := true }
  | .flag f (some value) :: rest, c => do take wanted rest (← c.setFlag f value)
  | .flag f none :: rest, c =>
    match rest with
    | .value s :: more => do take wanted more (← c.setFlag f s)
    | _ => .error wrong

/-- Reads a command line. -/
def read (words : List String) : Except Fault CommandLine := do take true (← wordsOf words) {}

end CommandLine

end Conceal
