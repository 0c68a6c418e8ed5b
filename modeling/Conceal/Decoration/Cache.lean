import Conceal.Editor.Basic

/-!
Decorations by key. Every key has at most one decoration, which is created when it is first asked
for and reused from then on, so that an update does not flicker. All decorations are on the canvas
of one editor, the host.
-/

namespace Conceal

/-- The decorations of the host by key, in the order in which the keys came. -/
structure Decorations where
  desk : Desk := {}
  host : Option String := none
  /-- The handles; one that the host kept to itself is missing. -/
  handles : List (String × Option Nat) := []

namespace Decorations

/-- The keys. -/
def keys (d : Decorations) : List String := d.handles.map (·.1)

/-- The handle of a key. -/
def handle? (d : Decorations) (key : String) : Option Nat := (d.handles.lookup key).join

/-- Gives a key a handle: in place where the key is present, else at the end. -/
def insertHandle : List (String × Option Nat) → String → Option Nat → List (String × Option Nat)
  | [], key, handle => [(key, handle)]
  | (k, h) :: rest, key, handle =>
    if k = key then (k, handle) :: rest else (k, h) :: insertHandle rest key handle

/-- Acts on the desk. -/
def onDesk {α : Type} (act : Step Desk α) : Step Decorations α :=
  Step.on Decorations.desk (fun d desk => { d with desk }) act

/-- The handle of a key, whose decoration is created if there is none. -/
def getOrCreate (key : String) (look : Look) : Step Decorations (Option Nat) := do
  let d ← get
  match d.host with
  | none => return none
  | some host =>
    match d.handle? key with
    | some handle => return some handle
    | none =>
      let handle ← onDesk (Desk.create host look)
      modify fun d => { d with handles := insertHandle d.handles key handle }
      return handle

/-- Gives the decoration of a key the stretches that it covers. -/
def render (key : String) (stretches : List Stretch) : Step Decorations Unit := do
  let d ← get
  match d.host, d.handle? key with
  | some host, some handle => onDesk (Desk.send host (.set handle stretches))
  | _, _ => return

/-- Removes a key; its decoration is emptied and disposed of. -/
def evict (key : String) : Step Decorations Unit := do
  let d ← get
  set { d with handles := d.handles.filter (·.1 != key) }
  match d.host, d.handle? key with
  | some host, some handle =>
    onDesk (Desk.send host (.set handle []))
    onDesk (Desk.send host (.dispose handle))
  | _, _ => return

/-- Removes keys one after the other. -/
def evictEach : List String → Step Decorations Unit
  | [] => return
  | key :: rest => do
    evict key
    evictEach rest

/-- Removes all keys but some; answers with the removed ones. -/
def evictAllExcept (keep : List String) : Step Decorations (List String) := do
  let evicted := (← get).keys.filter fun key => !keep.contains key
  evictEach evicted
  return evicted

/-- Removes all keys. -/
def clear : Step Decorations Unit := do evictEach (← get).keys

/-- Forgets all keys without a call to the host, which is gone already. -/
def forgetAll (d : Decorations) : Decorations := { d with handles := [] }

/-- Changes the host; the decorations on the old one are removed first. -/
def setHost (host : Option String) : Step Decorations Unit := do
  if (← get).host = host then return
  clear
  modify fun d => { d with host }

/-- The host changes when the decorations on the old one could be removed. -/
theorem setHost_cases (d : Decorations) {host : Option String} (hne : d.host ≠ host) :
    (∃ d', clear d = .ok () d' ∧ setHost host d = .ok () { d' with host }) ∨
      ∃ fault d', clear d = .error fault d' ∧ setHost host d = .error fault d' := by
  have hsetHost : setHost host d =
      (clear >>= fun _ => modify fun d : Decorations => { d with host }) d := by
    unfold setHost
    rw [Step.bind_of_ok (Step.get_apply d)]
    simp only [if_neg hne]
  cases hclear : clear d with
  | ok _ d' =>
    rw [Step.bind_of_ok hclear] at hsetHost
    exact Or.inl ⟨d', rfl, hsetHost⟩
  | error fault d' =>
    rw [Step.bind_of_error hclear] at hsetHost
    exact Or.inr ⟨fault, d', rfl, hsetHost⟩

end Decorations

end Conceal
