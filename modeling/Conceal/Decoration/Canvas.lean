import Conceal.Fault
import Conceal.Mask.Look

/-!
Canvases: what an editor draws decorations on. A decoration is created with a look, gets a handle,
is given the stretches that it covers, and is disposed of. The layers of a canvas are a fold of the
calls it received. Handles count from one and are never given twice, not even when a call is
refused.
-/

namespace Conceal

/-- A call to a canvas. -/
inductive Call where
  | create (handle : Option Nat) (look : Look)
  | set (handle : Nat) (stretches : List Stretch)
  | dispose (handle : Nat)
deriving DecidableEq, Repr

/-- A decoration that is drawn. -/
structure Layer where
  handle : Nat
  look : Look
  stretches : List Stretch := []
deriving DecidableEq, Repr

/-- A canvas. -/
structure Canvas where
  /-- How many handles were made. -/
  made : Nat := 0
  /-- The live decorations in the order of their creation. -/
  layers : List Layer := []
  /-- Does the canvas keep its handles to itself? -/
  anonymous : Bool := false
  /-- The calls that the canvas refuses. -/
  refuses : Call → Option Fault := fun _ => none

namespace Canvas

/-- The handle of the next decoration. -/
def nextHandle (c : Canvas) : Option Nat := if c.anonymous then none else some (c.made + 1)

/-- The layers after a call. -/
def redraw (layers : List Layer) : Call → List Layer
  | .create (some handle) look => layers ++ [⟨handle, look, []⟩]
  | .create none _ => layers
  | .set handle stretches =>
    layers.map fun l => if l.handle = handle then { l with stretches } else l
  | .dispose handle => layers.filter (·.handle != handle)

/-- Counts a handle for every decoration that is asked for. -/
def count (c : Canvas) : Call → Canvas
  | .create _ _ => { c with made := c.made + 1 }
  | _ => c

/-- Receives a call: does it, or refuses it and changes no layer. -/
def receive (c : Canvas) (call : Call) : Canvas × Option Fault :=
  match c.refuses call with
  | some fault => (c.count call, some fault)
  | none => ({ c.count call with layers := redraw c.layers call }, none)

/-- The layer of a handle. -/
def layer? (c : Canvas) (handle : Nat) : Option Layer := c.layers.find? (·.handle = handle)

/-- The live handles. -/
def handles (c : Canvas) : List Nat := c.layers.map Layer.handle

/-- The text to show when the pointer rests at an offset: that of the first stretch there that has
one. -/
def hoverAt? (layers : List Layer) (offset : Int) : Option String :=
  (layers.flatMap Layer.stretches).findSome? fun s =>
    if s.start ≤ offset ∧ offset < s.stop then s.hover.filter (· != "") else none

@[simp] theorem refuses_receive (c : Canvas) (call : Call) :
    (c.receive call).1.refuses = c.refuses := by
  unfold receive
  split <;> cases call <;> rfl

@[simp] theorem anonymous_receive (c : Canvas) (call : Call) :
    (c.receive call).1.anonymous = c.anonymous := by
  unfold receive
  split <;> cases call <;> rfl

end Canvas

end Conceal
