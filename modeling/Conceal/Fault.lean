import Conceal.Json.Reader
import Conceal.Json.Text
import Conceal.Regex.Parser
import Conceal.Text.Quoted

/-!
All the ways in which an operation fails, by cause, and the wording of those that are explained to
the user. What is wrong with a pattern, a file or a notation is not spelled out: `detail` stands in
its place.
-/

namespace Conceal

/-- Stands for an explanation that is not part of a message's wording. -/
def detail : String := "<detail>"

/-- Why a grammar is refused, or why it cannot go on. -/
inductive GrammarFault where
  | notJson
  | rootNotObject
  | noScopeName
  | repositoryNotObject
  | patternNotText (what : String)
  | badPattern (what source : String)
  | patternsNotList
  | ruleNotObject
  | beginWithoutEnd
  | includeNotText
  | unknownInclude (reference : String)
  | circularInclude (reference : String)
  | badEndPattern (source : String)
  | foreignState (shown : String)
deriving DecidableEq, Repr

/-- Why a grammar's file or a list of grammars cannot be used. -/
inductive LoadFault where
  | unreadableManifest (path : String)
  | unreadableGrammar (path : String)
  | badGrammar (source : String) (cause : GrammarFault)
  /-- A failure reported from outside. -/
  | reported (text : String)
deriving DecidableEq, Repr

/-- Why an entry of the settings is no mask. -/
inductive MaskFault where
  | entryNotObject
  | ignoreCaseNotBool (kind : String)
  | patternEmpty
  | badPattern (source : String)
  | replacementNotObject (literal : String)
  | replacementWithoutText (literal : String)
  | replaceNotText
  | fieldNotText (key kind : String)
deriving DecidableEq, Repr

/-- Why an operation failed. -/
inductive Fault where
  | grammar (source : String) (cause : GrammarFault)
  | load (cause : LoadFault)
  | mask (cause : MaskFault)
  /-- A position or a group that is not there. -/
  | outOfRange
  /-- A value that does not read as what is asked for. -/
  | malformed
  /-- A value of the wrong kind. -/
  | wrongKind
  /-- A value that lacks a property. -/
  | noProperty
  /-- A number beyond all bounds. -/
  | unbounded
  | fileNotFound
  | fileIsDirectory
  | notDirectory
  /-- Bytes that are not text. -/
  | notText
  /-- Someone whose home directory is not known. -/
  | noHome
  /-- There is no file to save to. -/
  | noTarget
  /-- The program ends with an exit code. -/
  | exit (code : Nat)
  /-- The editor refused a call. -/
  | host
deriving DecidableEq, Repr

/-- The wording of a grammar's fault, after its source. -/
def GrammarFault.wording : GrammarFault → String
  | .notJson => "invalid grammar JSON: " ++ detail
  | .rootNotObject => "grammar root must be a JSON object"
  | .noScopeName => "grammar has no 'scopeName'"
  | .repositoryNotObject => "'repository' must be an object"
  | .patternNotText what => s!"'{what}' must be a string"
  | .badPattern what source => s!"invalid {what} pattern {Text.quoted source}: {detail}"
  | .patternsNotList => "'patterns' must be a list"
  | .ruleNotObject => "grammar rules must be objects"
  | .beginWithoutEnd => "'begin' rule without an 'end' pattern"
  | .includeNotText => "'include' must be a non-empty string"
  | .unknownInclude reference => s!"unknown repository include {Text.quoted reference}"
  | .circularInclude reference => s!"circular include {Text.quoted reference}"
  | .badEndPattern source => s!"invalid end pattern {Text.quoted source}: {detail}"
  | .foreignState shown => s!"unexpected continuation state {shown}"

/-- The message of a grammar's fault. -/
def GrammarFault.message (source : String) (cause : GrammarFault) : String :=
  source ++ ": " ++ cause.wording

/-- The message of a failed load. -/
def LoadFault.message : LoadFault → String
  | .unreadableManifest path => s!"Could not read grammar manifest '{path}': {detail}"
  | .unreadableGrammar path => s!"Could not read grammar '{path}': {detail}"
  | .badGrammar source cause => cause.message source
  | .reported text => text

/-- The message of a mask's fault. -/
def MaskFault.message : MaskFault → String
  | .entryNotObject => "pattern entries must be objects"
  | .ignoreCaseNotBool kind => s!"'ignoreCase' must be a boolean, got {kind}"
  | .patternEmpty => "pattern must be a non-empty string"
  | .badPattern source => s!"invalid pattern {Text.quoted source}: {detail}"
  | .replacementNotObject literal => s!"replacement for {Text.quoted literal} must be an object"
  | .replacementWithoutText literal =>
    s!"replacement for {Text.quoted literal} needs a 'text' string"
  | .replaceNotText => "'replace' must be a string or an object"
  | .fieldNotText key kind => s!"'{key}' must be a string, got {kind}"

/-- The message of a fault that has one. -/
def Fault.message? : Fault → Option String
  | .grammar source cause => some (cause.message source)
  | .load cause => some cause.message
  | .mask cause => some cause.message
  | .noTarget => some "No file path to save to."
  | .exit code => some (toString code)
  | _ => none

/-- A value that does not read as a number, as a fault. -/
def Fault.ofNumber : Number.ReadFault → Fault
  | .malformed => .malformed
  | .wrongKind => .wrongKind
  | .unbounded => .unbounded

/-- A pattern that is refused: `invalid` says how a broken one is reported, all other refusals are
reported as they are. -/
def Fault.ofPattern (invalid : Fault) : Regex.Fault → Fault
  | .malformed => invalid
  | .repetitionTooLarge => .unbounded
  | .repetitionTooLong => .malformed
  | .classesConflict => .malformed

/-- Of two operations in a row none has failed if there is a result. -/
theorem bind_eq_ok {ε α β : Type} {x : Except ε α} {f : α → Except ε β} {b : β} :
    (x >>= f) = .ok b ↔ ∃ a, x = .ok a ∧ f a = .ok b := by
  cases x with
  | ok a =>
    constructor
    · exact fun h => ⟨a, rfl, h⟩
    · rintro ⟨_, ha, h⟩
      cases ha
      exact h
  | error e =>
    constructor
    · intro h
      cases h
    · rintro ⟨_, ha, _⟩
      cases ha

/-- Of two operations in a row one has failed if there is no result. -/
theorem bind_eq_error {ε α β : Type} {x : Except ε α} {f : α → Except ε β} {e : ε} :
    (x >>= f) = .error e ↔ x = .error e ∨ ∃ a, x = .ok a ∧ f a = .error e := by
  cases x with
  | ok a =>
    constructor
    · exact fun h => Or.inr ⟨a, rfl, h⟩
    · rintro (h | ⟨_, ha, h⟩)
      · cases h
      · cases ha
        exact h
  | error e' =>
    constructor
    · intro h
      cases h
      exact Or.inl rfl
    · rintro (h | ⟨_, ha, _⟩)
      · cases h
        rfl
      · cases ha

/-- Of two operations in a row both have a result if there is one in the end. -/
theorem toOption_bind_eq_some {ε α β : Type} {x : Except ε α} {f : α → Except ε β} {b : β} :
    (x >>= f).toOption = some b ↔ ∃ a, x = .ok a ∧ (f a).toOption = some b := by
  cases x with
  | ok a =>
    constructor
    · exact fun h => ⟨a, rfl, h⟩
    · rintro ⟨_, ha, h⟩
      cases ha
      exact h
  | error e =>
    constructor
    · intro h
      cases h
    · rintro ⟨_, ha, _⟩
      cases ha

/-- Renaming faults does not touch results. -/
theorem mapError_eq_ok {α ε ε' : Type} {x : Except ε α} {f : ε → ε'} {a : α} :
    x.mapError f = .ok a ↔ x = .ok a := by
  cases x with
  | ok b => exact ⟨fun h => congrArg _ (Except.ok.inj h), fun h => congrArg _ (Except.ok.inj h)⟩
  | error e =>
    constructor
    · intro h
      cases h
    · intro h
      cases h

/-- A renamed fault comes of a fault. -/
theorem mapError_eq_error {α ε ε' : Type} {x : Except ε α} {f : ε → ε'} {e' : ε'} :
    x.mapError f = .error e' ↔ ∃ e, x = .error e ∧ f e = e' := by
  cases x with
  | ok a =>
    constructor
    · intro h
      cases h
    · rintro ⟨_, ha, _⟩
      cases ha
  | error e =>
    constructor
    · exact fun h => ⟨e, rfl, Except.error.inj h⟩
    · rintro ⟨_, ha, h⟩
      cases ha
      exact congrArg _ h

/-- What has gone wrong, if anything has. -/
def fault? {α : Type} : Except Fault α → Option Fault
  | .ok _ => none
  | .error fault => some fault

theorem fault?_eq_some_iff {α : Type} {x : Except Fault α} {fault : Fault} :
    fault? x = some fault ↔ x = .error fault := by
  cases x with
  | ok a => simp [fault?]
  | error fault' => simp [fault?]

/-- Reads a value as a whole number, or fails. -/
def Json.integer (value : Json) : Except Fault Int := value.toInteger.mapError Fault.ofNumber

end Conceal
