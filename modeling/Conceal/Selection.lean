/-!
Selections: two ends in any order. The second end is where the caret is.
-/

namespace Conceal

/-- The ends of a selection in ascending order. -/
def orderEnds (anchor active : Int) : Int × Int :=
  if active < anchor then (active, anchor) else (anchor, active)

end Conceal
