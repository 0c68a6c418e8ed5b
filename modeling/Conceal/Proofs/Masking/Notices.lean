import Conceal.Masking

/-!
Notices are only written: what masking does, and whether it fails, does not depend on those so far.
Main statements: `agrees_apply` and `agrees_update`.
-/

namespace Conceal.Masking

/-- Two maskings are the same but for their notices. -/
structure Similar (m n : Masking) : Prop where
  decorations : n.decorations = m.decorations
  scopes : n.scopes = m.scopes
  passKeys : n.passKeys = m.passKeys

variable {m n : Masking}

theorem Similar.refl (m : Masking) : Similar m m := ⟨rfl, rfl, rfl⟩

/-- Notices do not choose the host. -/
theorem Similar.editor?_eq (h : Similar m n) : n.editor? = m.editor? :=
  congrArg Decorations.host h.decorations

/-- What is done with decorations does not look at notices. -/
theorem agrees_onDecorations {α : Type} (act : Step Decorations α) :
    Step.Agrees Similar (onDecorations act) (onDecorations act) :=
  Step.agrees_on (Step.agrees_refl act) (fun _ _ h => h.decorations.symm)
    fun _ _ _ _ h hpart => ⟨hpart.symm, h.scopes, h.passKeys⟩

theorem agrees_report (notice : Notice) : Step.Agrees Similar (report notice) (report notice) :=
  Step.agrees_modify fun _ _ h => ⟨h.decorations, h.scopes, h.passKeys⟩

/-- Decisions are carried out alike, whatever was reported before. -/
theorem agrees_carryOut (base : String) (ds : List Decision)
    (found : List (String × List Stretch)) :
    Step.Agrees Similar (carryOut base ds found) (carryOut base ds found) := by
  induction ds generalizing found with
  | nil => exact Step.agrees_pure _
  | cons d rest ih =>
    cases d with
    | notice notice => exact (agrees_report notice).bind fun _ => ih found
    | fail fault => exact Step.agrees_throw fault
    | place p =>
      have hrest := ih (addStretch found (keyOf base p) p.stretch)
      simp only [carryOut]
      cases (found.map (·.1)).contains (keyOf base p) with
      | true => exact hrest
      | false =>
        cases p.own with
        | none => exact hrest
        | some own => exact (agrees_onDecorations _).bind fun _ => hrest

/-- Keys are drawn alike, whatever was reported before. -/
theorem agrees_renderEach (found : List (String × List Stretch)) :
    Step.Agrees Similar (renderEach found) (renderEach found) := by
  induction found with
  | nil => exact Step.agrees_pure _
  | cons d rest ih => exact (agrees_onDecorations _).bind fun _ => ih

/-- The keys of an update are noted alike, whatever was reported before. -/
theorem agrees_noteKeys (used : List String) :
    Step.Agrees Similar (noteKeys used) (noteKeys used) := by
  intro m n h
  unfold noteKeys
  rw [Step.modifyGet_apply, Step.modifyGet_apply, h.passKeys]
  cases m.passKeys with
  | none => exact .ok _ h
  | some keys => exact .ok _ ⟨h.decorations, h.scopes, rfl⟩

theorem agrees_draw (base : String) (decided : List Decision) :
    Step.Agrees Similar (draw base decided) (draw base decided) := by
  unfold draw
  refine (agrees_carryOut _ _ _).bind fun found => ?_
  refine (agrees_renderEach _).bind fun _ => ?_
  refine (agrees_noteKeys _).bind fun keep => ?_
  exact (agrees_onDecorations _).bind fun _ => Step.agrees_pure _

/-- An entry is applied alike, whatever was reported before. -/
theorem agrees_apply (pattern : Pattern) (mask : Mask) (caretStyle : String) :
    Step.Agrees Similar (apply pattern mask caretStyle) (apply pattern mask caretStyle) := by
  refine Step.agrees_get_bind fun m n h => ?_
  rw [h.editor?_eq]
  cases m.editor? with
  | none => exact Step.agrees_pure 0 m n h
  | some editor =>
    refine ((agrees_onDecorations _).bind fun document => ?_) m n h
    cases document with
    | none => exact Step.agrees_pure 0
    | some document =>
      refine (agrees_onDecorations _).bind fun _ => (agrees_onDecorations _).bind fun ends => ?_
      refine Step.agrees_get_bind fun m n h => ?_
      rw [h.scopes]
      exact agrees_draw _ _ m n h

/-- Updates agree when what they consist of does. -/
theorem agrees_update {α : Type} {x y : Step Masking α} (h : Step.Agrees Similar x y) :
    Step.Agrees Similar (update x) (update y) := by
  -- the body and the eviction after it, within a pass of their own
  have hwhole : Step.Agrees Similar
      (do
        let answer ← x
        let m ← get
        if m.editor?.isSome then
          let _ ← onDecorations (Decorations.evictAllExcept (m.passKeys.getD []))
        return answer)
      (do
        let answer ← y
        let m ← get
        if m.editor?.isSome then
          let _ ← onDecorations (Decorations.evictAllExcept (m.passKeys.getD []))
        return answer) := by
    refine h.bind fun answer => Step.agrees_get_bind fun m n h => ?_
    rw [h.editor?_eq, h.passKeys]
    split
    · exact ((agrees_onDecorations _).bind fun _ => Step.agrees_pure answer) m n h
    · exact Step.agrees_pure answer m n h
  intro m n hsimilar
  have hbegun := hwhole { m with passKeys := some [] } { n with passKeys := some [] }
    ⟨hsimilar.decorations, hsimilar.scopes, rfl⟩
  unfold update
  dsimp only
  revert hbegun
  generalize (x >>= _ : Step Masking α) { m with passKeys := some [] } = r
  generalize (y >>= _ : Step Masking α) { n with passKeys := some [] } = r'
  intro hbegun
  cases hbegun with
  | ok answer h => exact .ok answer ⟨h.decorations, h.scopes, hsimilar.passKeys⟩
  | error fault h => exact .error fault ⟨h.decorations, h.scopes, hsimilar.passKeys⟩

end Conceal.Masking
