/-!
What is reported to the log, apart from details for debugging. Every notice has a level and a
wording with gaps for what it is about.
-/

namespace Conceal

/-- A notice for the log. -/
inductive Notice where
  | lineWithoutScopes
  | grammarDropped
  | patternSkipped
  | grammarNotLoaded
  | grammarUnknown
  | settingsIgnored
  | settingsReloaded
  | settingsUnread
deriving DecidableEq, Repr

namespace Notice

/-- How serious a notice is. -/
def level : Notice → String
  | .grammarDropped => "ERROR"
  | .grammarUnknown | .settingsReloaded => "INFO"
  | _ => "WARNING"

/-- The wording of a notice. -/
def wording : Notice → String
  | .lineWithoutScopes => "Grammar failed on line %d; no scope data"
  | .grammarDropped => "Grammar %r cannot tokenize the document; dropping it"
  | .patternSkipped => "Skipping mask pattern %r: %s"
  | .grammarNotLoaded => "Could not load grammar %s: %s"
  | .grammarUnknown => "No grammar contributes scope %s"
  | .settingsIgnored => "Ignoring unreadable settings file %s: %s"
  | .settingsReloaded => "Symbol mask settings reloaded from %s"
  | .settingsUnread => "Using default settings, %s could not be read: %s"

end Notice

end Conceal
