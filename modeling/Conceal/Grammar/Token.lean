import Conceal.Scope

/-!
Tokens: the stretches of a line with the scopes that hold there, the outermost first.
-/

namespace Conceal

/-- A stretch `[start, stop)` of a line and its scopes. -/
structure Token where
  start : Nat
  stop : Nat
  scopes : List String
deriving DecidableEq, Repr, Inhabited

namespace Token

/-- Does one of the token's scopes lie within the filter? -/
def within (t : Token) (filter : String) : Bool := t.scopes.any (Scope.within · filter)

/-- The first token that covers a place. -/
def covering? (tokens : List Token) (character : Int) : Option Token :=
  tokens.find? fun t => t.start ≤ character && character < t.stop

end Token

end Conceal
