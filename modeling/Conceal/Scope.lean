import Conceal.Text.Basic

/-!
Scope names: components joined by dots, from the general to the special. A filter holds a scope when
the filter's components come first in it.
-/

namespace Conceal.Scope

/-- The components of a scope name. -/
def components (scope : List Char) : List (List Char) := Text.splitChars '.' scope

/-- Does the scope equal the filter, or continue it after a dot? -/
def withinChars (scope filter : List Char) : Bool :=
  !filter.isEmpty && filter.isPrefixOf scope
    && match scope.drop filter.length with
      | [] => true
      | c :: _ => c == '.'

/-- Does the scope equal the filter, or continue it after a dot? No scope is within an empty
filter. -/
def within (scope filter : String) : Bool := withinChars scope.toList filter.toList

end Conceal.Scope
