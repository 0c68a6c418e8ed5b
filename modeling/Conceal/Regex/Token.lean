/-!
Patterns in characters that stand for themselves or are escaped. A backslash always pairs with the
character after it.
-/

namespace Conceal.Regex

/-- One unit of a pattern's text. -/
inductive Token where
  | plain (c : Nat)
  | escaped (c : Nat)
  /-- A backslash at the very end. -/
  | dangling
deriving DecidableEq, Repr

/-- Reads a pattern's text as tokens. -/
def tokens : List Char → List Token
  | [] => []
  | ['\\'] => [.dangling]
  | '\\' :: c :: rest => .escaped c.toNat :: tokens rest
  | c :: rest => .plain c.toNat :: tokens rest

/-- The text that a token stands for. -/
def Token.text : Token → List Nat
  | .plain c => [c]
  | .escaped c => [92, c]
  | .dangling => [92]

/-- Is the token the given character, not escaped? -/
def Token.isPlain (t : Token) (c : Char) : Bool := t == .plain c.toNat

end Conceal.Regex
