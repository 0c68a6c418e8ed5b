import Conceal.Number.Exact

/-!
Values of settings and grammar files. Whole numbers are unbounded and differ from fractional ones;
an object keeps its members in the order in which their keys first came.
-/

namespace Conceal

/-- A value of a settings or grammar file. -/
inductive Json where
  | null
  | bool (b : Bool)
  | int (i : Int)
  | float (x : Float)
  | str (s : String)
  | arr (items : List Json)
  | obj (members : List (String × Json))
deriving Inhabited

namespace Json

/-- The members of an object, in order. -/
abbrev Members := List (String × Json)

/-- The value of a key. -/
def Members.get? (members : Members) (key : String) : Option Json := List.lookup key members

/-- The value of a key, `null` when it is missing. -/
def Members.get (members : Members) (key : String) : Json := (members.get? key).getD .null

/-- Gives a key a value: in place where the key is present, else at the end. -/
def Members.insert : Members → String → Json → Members
  | [], key, value => [(key, value)]
  | (k, v) :: rest, key, value =>
    if k = key then (k, value) :: rest else (k, v) :: Members.insert rest key value

/-- Gives keys their values one after the other. -/
def Members.insertAll (members : Members) (more : List (String × Json)) : Members :=
  more.foldl (fun acc (key, value) => Members.insert acc key value) members

/-- An object from members in which a key may come several times: the last value wins and the first
place is kept. -/
def ofMembers (members : List (String × Json)) : Json := .obj (Members.insertAll [] members)

/-- The name of a value's kind, as messages give it. -/
def kindName : Json → String
  | .null => "NoneType"
  | .bool _ => "bool"
  | .int _ => "int"
  | .float _ => "float"
  | .str _ => "str"
  | .arr _ => "list"
  | .obj _ => "dict"

/-- Does the value count as yes? Null, false, zero and what is empty do not. -/
def isTruthy : Json → Bool
  | .null => false
  | .bool b => b
  | .int i => i != 0
  | .float x => !(Number.Exact.ofFloat x).isZero
  | .str s => s != ""
  | .arr items => !items.isEmpty
  | .obj members => !members.isEmpty

/-- The value itself if it counts as yes, else the alternative. -/
def orElse (value alternative : Json) : Json := if value.isTruthy then value else alternative

/-- The number that a value stands for where numbers are compared: truth values count as one and
zero. -/
def number? : Json → Option (Int ⊕ Float)
  | .bool b => some (.inl (if b then 1 else 0))
  | .int i => some (.inl i)
  | .float x => some (.inr x)
  | _ => none

/-- Are two numbers equal in value? -/
def sameNumber : Int ⊕ Float → Int ⊕ Float → Bool
  | .inl a, .inl b => a == b
  | .inl a, .inr b => (Number.Exact.ofFloat b).isInteger a
  | .inr a, .inl b => (Number.Exact.ofFloat a).isInteger b
  | .inr a, .inr b => (Number.Exact.ofFloat a).same (Number.Exact.ofFloat b)

mutual

/-- Are two values equal, numbers by their value and objects whatever the order of their keys? -/
def same : Json → Json → Bool
  | .null, .null => true
  | .str a, .str b => a == b
  | .arr a, .arr b => sameItems a b
  | .obj a, .obj b => a.length == b.length && sameMembers a b
  | a, b =>
    match a.number?, b.number? with
    | some x, some y => sameNumber x y
    | _, _ => false

/-- Are two lists equal item by item? -/
def sameItems : List Json → List Json → Bool
  | [], [] => true
  | a :: as, b :: bs => same a b && sameItems as bs
  | _, _ => false

/-- Has every member of the first list an equal value in the second? -/
def sameMembers : List (String × Json) → List (String × Json) → Bool
  | [], _ => true
  | (key, a) :: rest, others =>
    (match List.lookup key others with
      | some b => same a b
      | none => false) && sameMembers rest others

end

end Json

end Conceal
