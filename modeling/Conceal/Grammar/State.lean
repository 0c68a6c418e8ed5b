import Conceal.Text.Quoted

/-!
What a tokenizer remembers between lines: the stack of blocks that are open, the outermost first.
-/

namespace Conceal

/-- An open block: its rule, the scopes of its delimiters, the scopes of its content, and the
pattern that ends it. -/
structure Frame where
  rule : Nat
  scopes : List String
  contentScopes : List String
  endSource : Option String := none
deriving DecidableEq, Repr, Inhabited

/-- The state at the end of a line. -/
structure LineState where
  frames : List Frame
deriving DecidableEq, Repr, Inhabited

namespace LineState

/-- The number of open blocks. -/
def depth (s : LineState) : Nat := s.frames.length

/-- The innermost block. -/
def top? (s : LineState) : Option Frame := s.frames.getLast?

/-- Opens a block inside the innermost one. -/
def push (s : LineState) (f : Frame) : LineState := ⟨s.frames ++ [f]⟩

/-- Closes the innermost block; the outermost one stays open. -/
def pop (s : LineState) : LineState := if s.frames.length ≤ 1 then s else ⟨s.frames.dropLast⟩

/-- Texts in brackets, with a comma after a single one. -/
def showTexts (texts : List String) : String :=
  match texts with
  | [s] => "(" ++ Text.quoted s ++ ",)"
  | _ => "(" ++ ", ".intercalate (texts.map Text.quoted) ++ ")"

/-- A block as messages show it. -/
def showFrame (f : Frame) : String :=
  let ending := match f.endSource with
    | some s => Text.quoted s
    | none => "None"
  "_Frame(rule_id=" ++ toString f.rule ++ ", scopes=" ++ showTexts f.scopes ++ ", content_scopes="
    ++ showTexts f.contentScopes ++ ", end_source=" ++ ending ++ ")"

/-- A state as messages show it. -/
def shown (s : LineState) : String :=
  let inner := match s.frames with
    | [f] => showFrame f ++ ","
    | frames => ", ".intercalate (frames.map showFrame)
  "StateStack(frames=(" ++ inner ++ "))"

@[simp] theorem depth_push (s : LineState) (f : Frame) : (s.push f).depth = s.depth + 1 := by
  simp [depth, push]

/-- Leaving a block takes back entering it. -/
theorem pop_push {s : LineState} (f : Frame) (h : s.frames ≠ []) : (s.push f).pop = s := by
  cases s with
  | mk frames =>
    have : 0 < frames.length := List.length_pos_iff.mpr h
    simp [push, pop]
    omega

end LineState

end Conceal
