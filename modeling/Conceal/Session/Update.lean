import Conceal.Language.Selector
import Conceal.Session.Basic

/-!
The update of a session: finding the scopes of the document where they are not known, and applying
the patterns of all rules that select the document. An entry that is no mask is skipped with a
notice.
-/

namespace Conceal.Session

/-- The caret style that masks are applied for: the editor's own, or else that of the settings. -/
def caretStyle (s : Session) : String :=
  let own := ((s.editor?.bind s.desk.editor?).map Editor.caretStyle).getD .null
  ((own.orElse (s.settings.get "cursor_style")).orElse (.str "line")).text

/-- What the scopes are found for. -/
def scopesKey (s : Session) (document : Document) : Int × Option Nat :=
  (document.revision, s.tokenizer?.map Tokenizer.serial)

/-- Sees to it that the scopes are those of the document. -/
def ensureScopes (document : Document) : Step Session Unit := do
  let s ← get
  let scopes := s.masking.scopes.setDocument (some document)
  if !s.stale && s.tokenizedFor = some (s.scopesKey document) then
    set { s with masking.scopes := scopes }
  else
    let r := scopes.rebuild
    set { s with
      masking.scopes := r.scopes
      masking.notices := s.masking.notices ++ r.notice.toList }
    Step.forSome r.fault throw
    modify fun s => { s with stale := false, tokenizedFor := some (s.scopesKey document) }

/-- Reads an entry of a rule, pattern and mask. -/
def readEntry (entry : Json) : Except Fault (Pattern × Mask) := do
  let pattern ← Pattern.ofJson entry
  let mask ← Mask.ofJson entry
  return (pattern, mask)

/-- Applies entries one after the other; answers with the number of those that are masks. -/
def applyEntries (caretStyle : String) : List Json → Step Masking Nat
  | [] => return 0
  | entry :: rest => do
    let applied ←
      match readEntry entry with
      | .ok (pattern, mask) => do
        let _ ← Masking.apply pattern mask caretStyle
        pure 1
      | .error (.mask _) => do
        Masking.report .patternSkipped
        pure 0
      | .error fault => throw fault
    return applied + (← applyEntries caretStyle rest)

/-- The selector of a rule. -/
def selectorOf (rule : Json.Members) : Json :=
  (rule.get? "selector").getD (rule.get "language")

/-- The entries of a rule, if it selects the document. -/
def entriesFor (document : Document) : Json → Except Fault (List Json)
  | .obj rule => do
    let path := (document.filePath.map Json.str).getD .null
    if ← Selector.matching (selectorOf rule) (.str document.languageId) path then
      match Json.Members.get rule "patterns" with
      | .arr entries => return entries
      | _ => return []
    else return []
  | _ => return []

/-- Applies the rules that select a document; answers with the number of patterns. -/
def applyRules (document : Document) (caretStyle : String) : List Json → Step Masking Nat
  | [] => return 0
  | rule :: rest => do
    let entries ← Step.ofExcept (entriesFor document rule)
    let applied ← applyEntries caretStyle entries
    return applied + (← applyRules document caretStyle rest)

/-- The rules of the session. -/
def rules (s : Session) : List Json :=
  match s.settings.get "masks" with
  | .arr rules => rules
  | _ => []

/-- Masks a document. -/
def maskDocument (document : Document) : Step Session Unit := do
  ensureScopes document
  let s ← get
  let applied ← onMasking (Masking.update (applyRules document s.caretStyle s.rules))
  modify (announce (.masked applied))

/-- Runs an update. A session that is switched off removes all masks instead. -/
def update : Step Session Unit := do
  let s ← get
  if !s.hasLiveEditor then return
  if !(s.settings.get "enabled").isTruthy then
    onMasking (Masking.onDecorations Decorations.clear)
  else
    let document ←
      match s.editor? with
      | some name => onDesk (Desk.snapshot name)
      | none => pure none
    Step.forSome document maskDocument

/-- The pause before an update is over, if it was running. -/
def fire : Step Session Unit := do
  if (← get).waiting then
    modify fun s => { s with waiting := false }
    update

end Conceal.Session
