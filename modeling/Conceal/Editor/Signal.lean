/-!
What editors tell about themselves.
-/

namespace Conceal

/-- A change that an editor tells about. -/
inductive Signal where
  | selectionChanged
  | caretMoved
  | caretsChanged
  | textChanged
  | saved
  | languageChanged
deriving DecidableEq, Repr

/-- All signals, in the order in which a session connects to them. -/
def Signal.all : List Signal :=
  [.selectionChanged, .caretMoved, .caretsChanged, .textChanged, .saved, .languageChanged]

end Conceal
