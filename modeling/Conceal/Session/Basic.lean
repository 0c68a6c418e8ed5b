import Conceal.Masking
import Conceal.Settings.Basic

/-!
Sessions: an editor whose masks are kept up to date. Whatever happens to the editor starts a short
pause; after it one update masks the whole document. Grammars are asked for and come later; only the
answer to the last request counts.
-/

namespace Conceal

/-- What a session tells the outside. -/
inductive Announcement where
  /-- An update has run; the number of patterns that were applied. -/
  | masked (patterns : Nat)
  /-- Another grammar is used, or none. -/
  | grammarChanged (scopeName : String)
deriving DecidableEq, Repr

/-- What came of a request for a grammar: a tokenizer, or none, or a failure. -/
inductive Delivery where
  | found (t : Tokenizer)
  | missing
  | failed

/-- A request for a grammar. Requests count up. -/
structure GrammarRequest where
  number : Nat
  scopeName : String
  delivery : Option Delivery := none

/-- A session. -/
structure Session where
  settings : Json.Members
  /-- The scope name of a language. -/
  languages : String → Option String
  masking : Masking := {}
  /-- The scope name of the document's language, empty where there is none. -/
  scopeName : String := ""
  /-- Must the scopes be found anew? -/
  stale : Bool := true
  /-- The revision and the tokenizer that the scopes were found for. -/
  tokenizedFor : Option (Int × Option Nat) := none
  /-- The number of the last request. -/
  requests : Nat := 0
  /-- The requests that are not settled. -/
  pending : List GrammarRequest := []
  /-- The requests that nobody has begun to look after. -/
  asked : List (Nat × String) := []
  /-- Is the pause before an update running? -/
  waiting : Bool := false
  /-- Is the timer running that looks for deliveries? -/
  polling : Bool := false
  announced : List Announcement := []

namespace Session

/-- How often deliveries are looked for, in milliseconds. -/
def pollInterval : Nat := 20

/-- The pause before an update, in milliseconds. -/
def pause (s : Session) : Int :=
  (s.settings.get "debounce_ms").toInteger.toOption.getD Settings.defaultDebounce

/-- The editor of the session. -/
def editor? (s : Session) : Option String := s.masking.editor?

/-- The tokenizer of the document. -/
def tokenizer? (s : Session) : Option Tokenizer := s.masking.scopes.tokenizer

/-- The editors. -/
def desk (s : Session) : Desk := s.masking.decorations.desk

/-- Changes an editor. -/
def changeEditor (s : Session) (name : String) (f : Editor → Editor) : Session :=
  { s with masking.decorations.desk := s.desk.change name f }

/-- Acts on the masking. -/
def onMasking {α : Type} (act : Step Masking α) : Step Session α :=
  Step.on Session.masking (fun s masking => { s with masking }) act

/-- Acts on the desk. -/
def onDesk {α : Type} (act : Step Desk α) : Step Session α := onMasking (Masking.onDesk act)

/-- Tells the outside. -/
def announce (a : Announcement) (s : Session) : Session :=
  { s with announced := s.announced ++ [a] }

/-- Starts the pause before an update, from its beginning if it is running. -/
def schedule (s : Session) : Session := { s with waiting := true }

/-- Is the session's editor still there? -/
def hasLiveEditor (s : Session) : Bool := s.editor?.any s.desk.isAlive

end Session

end Conceal
