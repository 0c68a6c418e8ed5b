import Conceal.File.Tree
import Conceal.LineScopes
import Conceal.Text.Basic

/-!
The registry of grammars: which scope name a language has, and which file holds the grammar of a
scope name. A grammar is read when it is first asked for and kept; a later contribution for its
scope name makes the registry read it again.
-/

namespace Conceal

/-- A grammar that a file contributes. -/
structure Contribution where
  scopeName : String
  path : Path
  language : Option String := none
deriving DecidableEq, Repr

/-- A grammar that was read. Two grammars of one serial number are the same one. -/
structure Loaded where
  serial : Nat
  grammar : Grammar

/-- A loaded grammar as a tokenizer. -/
def Loaded.tokenizer (l : Loaded) : Tokenizer := l.grammar.toTokenizer l.serial

/-- The registry. -/
structure Registry where
  contributions : List Contribution := []
  /-- The grammars that were read, by scope name. -/
  loaded : List (String × Loaded) := []
  /-- How many grammars were read so far. -/
  reads : Nat := 0

namespace Registry

/-- A trimmed text from any value; what counts as no gives the empty one. -/
def trimmed (value : Json) : String := Text.trim (value.orElse (.str "")).text

/-- The contribution of an entry of a manifest whose paths start at a directory; an entry without a
scope name or a path contributes nothing. -/
def contribution? (directory : Path) : Json → Option Contribution
  | .obj members =>
    let scopeName := trimmed (Json.Members.get members "scopeName")
    let path := trimmed (Json.Members.get members "path")
    if scopeName = "" ∨ path = "" then none
    else
      let language := Text.lower (trimmed (Json.Members.get members "language"))
      some ⟨scopeName, directory.join (Path.ofString path),
        if language = "" then none else some language⟩
  | _ => none

/-- The entries of a manifest. -/
def entries : Json → List Json
  | .obj members =>
    match Json.Members.get members "grammars" with
    | .arr items => items
    | _ => []
  | _ => []

/-- The registry of a manifest. -/
def ofManifest (files : FileTree) (manifest : Path) : Except Fault Registry :=
  match (files.readText manifest).toOption.bind fun text => (Json.parse text).toOption with
  | some value =>
    let found := (entries value).filterMap (contribution? manifest.parent)
    if found.all fun c => c.path.usable then
      .ok { contributions := found.map fun c => { c with path := Path.resolve files.base c.path } }
    else .error .malformed
  | none => .error (.load (.unreadableManifest manifest.toString))

/-- Adds a contribution; a grammar of its scope name will be read again. -/
def register (r : Registry) (c : Contribution) : Registry :=
  { r with
    contributions := r.contributions ++ [c]
    loaded := r.loaded.filter (·.1 != c.scopeName) }

/-- The scope name of a language, given as any value: that of the first contribution for it. -/
def scopeName? (r : Registry) (language : Json) : Option String :=
  let language := Text.lower (trimmed language)
  if language = "" then none
  else (r.contributions.find? (·.language == some language)).map Contribution.scopeName

/-- The contribution for a scope name. -/
def contributionFor? (r : Registry) (scopeName : String) : Option Contribution :=
  r.contributions.find? (·.scopeName = scopeName)

/-- What goes wrong with the file of a grammar, as a fault of loading it; bytes that are not text are
no such fault. -/
def ofFile (path : String) : Fault → Fault
  | .notText => .notText
  | _ => .load (.unreadableGrammar path)

/-- What goes wrong with a grammar, as a fault of loading it where the grammar is refused. -/
def ofGrammar : Fault → Fault
  | .grammar source cause => .load (.badGrammar source cause)
  | fault => fault

/-- Reads the grammar of a contribution. -/
def readGrammar (files : FileTree) (c : Contribution) : Except Fault Grammar := do
  let path := c.path.toString
  if !c.path.usable then throw .malformed
  let text ← (files.readText c.path).mapError (ofFile path)
  (Grammar.ofJson path (.str text)).mapError ofGrammar

/-- What the registry knows about a scope name before it reads a file. -/
inductive Lookup where
  | loaded (l : Loaded)
  | contributed (c : Contribution)
  | unknown

/-- Looks a scope name up; no grammar has the empty one. -/
def lookUp (r : Registry) (scopeName : String) : Lookup :=
  if scopeName = "" then .unknown
  else
    match r.loaded.lookup scopeName with
    | some l => .loaded l
    | none =>
      match r.contributionFor? scopeName with
      | some c => .contributed c
      | none => .unknown

/-- Keeps a grammar that was read for a scope name. -/
def keep (r : Registry) (scopeName : String) (grammar : Grammar) : Loaded × Registry :=
  let l : Loaded := ⟨r.reads, grammar⟩
  (l, { r with
    loaded := (scopeName, l) :: r.loaded.filter (·.1 != scopeName)
    reads := r.reads + 1 })

/-- The grammar of a scope name, if there is one; reads it unless that has been done before. -/
def load (r : Registry) (files : FileTree) (scopeName : String) :
    Except Fault (Option Loaded) × Registry :=
  match r.lookUp scopeName with
  | .loaded l => (.ok (some l), r)
  | .unknown => (.ok none, r)
  | .contributed c =>
    match readGrammar files c with
    | .error fault => (.error fault, r)
    | .ok grammar =>
      let (l, r) := r.keep scopeName grammar
      (.ok (some l), r)

end Registry

end Conceal
