import Conceal.Session.Update

/-!
What masking can do to decorations. All of it comes down to calls to the host, questions to the host
and other keys, whether or not the host grants the calls; so what these do not break, masking does
not break. Main statements: `Framed.applyRules` for the body of an update, with `Framed.update`.
-/

namespace Conceal

namespace Decorations

/-- To ask for a decoration is to send the call that creates it. -/
theorem after_onDesk_create (name : String) (look : Look) (d : Decorations) :
    ∃ call, Step.after (onDesk (Desk.create name look)) d =
      Step.after (onDesk (Desk.send name call)) d := by
  refine ⟨.create ((d.desk.editor? name).bind fun e => e.canvas.nextHandle) look, ?_⟩
  rw [onDesk, onDesk, Step.after_on, Step.after_on]
  unfold Desk.create
  rw [Step.after_bind_of_ok (Step.get_apply d.desk), Step.after_bind_pure]

/-- A relation between decorations and later ones with the same host that is not broken by calls to
the host, questions to it, or other keys. -/
structure Framed (R : Decorations → Decorations → Prop) : Prop where
  host : ∀ {d d'}, R d d' → d'.host = d.host
  send : ∀ {d host} (call : Call), d.host = some host →
    R d (Step.after (onDesk (Desk.send host call)) d)
  snapshot : ∀ {d host}, d.host = some host → R d (Step.after (onDesk (Desk.snapshot host)) d)
  selections : ∀ {d host}, d.host = some host → R d (Step.after (onDesk (Desk.selections host)) d)
  handles : ∀ (d : Decorations) (handles : List (String × Option Nat)), R d { d with handles }

namespace Framed

variable {R : Decorations → Decorations → Prop} [Std.Refl R] [Trans R R R]

/-- Asking for a layer is a call to the host at most, and a change of the books. -/
theorem getOrCreate (h : Framed R) (key : String) (look : Look) :
    Step.Obeys R (getOrCreate key look) := by
  intro d
  unfold Decorations.getOrCreate
  rw [Step.after_bind_of_ok (Step.get_apply d)]
  split
  · exact Std.Refl.refl d
  next host hhost =>
    split
    · exact Std.Refl.refl d
    · obtain ⟨call, hcreate⟩ := after_onDesk_create host look d
      refine Step.after_bind_rel ?_ fun handle d' _ => h.handles d' _
      rw [hcreate]
      exact h.send _ hhost

omit [Trans R R R] in
/-- Drawing is one call to the host, or nothing. -/
theorem render (h : Framed R) (key : String) (stretches : List Stretch) :
    Step.Obeys R (render key stretches) := by
  intro d
  unfold Decorations.render
  rw [Step.after_bind_of_ok (Step.get_apply d)]
  split
  next host handle hhost _ => exact h.send _ hhost
  · exact Std.Refl.refl d

omit [Std.Refl R] in
/-- Evicting is two calls to the host at most, and a change of the books. -/
theorem evict (h : Framed R) (key : String) : Step.Obeys R (evict key) := by
  intro d
  unfold Decorations.evict
  rw [Step.after_bind_of_ok (Step.get_apply d), Step.after_bind_of_ok (Step.set_apply d _)]
  -- the key is gone before the host is called
  have hwithout := h.handles d (d.handles.filter (·.1 != key))
  split
  next host handle hhost _ =>
    have hset := h.send (d := { d with handles := d.handles.filter (·.1 != key) })
      (.set handle []) hhost
    refine Trans.trans hwithout (Step.after_bind_rel hset fun _ d' hok => ?_)
    rw [Step.after_of_ok hok] at hset
    exact h.send (.dispose handle) ((h.host hset).trans hhost)
  · exact hwithout

/-- Evicting several keys breaks nothing that evicting one does not break. -/
theorem evictEach (h : Framed R) (keys : List String) : Step.Obeys R (evictEach keys) := by
  induction keys with
  | nil => exact Step.obeys_pure _
  | cons key rest ih => exact (h.evict key).bind fun _ => ih

theorem evictAllExcept (h : Framed R) (keep : List String) :
    Step.Obeys R (evictAllExcept keep) :=
  Step.obeys_get.bind fun _ => (h.evictEach _).bind fun _ => Step.obeys_pure _

theorem clear (h : Framed R) : Step.Obeys R clear := Step.obeys_get.bind fun _ => h.evictEach _

end Framed

end Decorations

namespace Masking

/-- The later masking has the same scopes, and decorations that are in a relation. -/
structure Keeping (R : Decorations → Decorations → Prop) (m m' : Masking) : Prop where
  scopes : m'.scopes = m.scopes
  decorations : R m.decorations m'.decorations

variable {R : Decorations → Decorations → Prop}

instance [Std.Refl R] : Std.Refl (Keeping R) := ⟨fun _ => ⟨rfl, Std.Refl.refl _⟩⟩

instance [Trans R R R] : Trans (Keeping R) (Keeping R) (Keeping R) where
  trans h h' := ⟨h'.scopes.trans h.scopes, Trans.trans h.decorations h'.decorations⟩

/-- What an operation on decorations keeps, it keeps for the masking. -/
theorem keeping_onDecorations {α : Type} {act : Step Decorations α} {m : Masking}
    (h : R m.decorations (Step.after act m.decorations)) :
    Keeping R m (Step.after (onDecorations act) m) := by
  rw [onDecorations, Step.after_on]
  exact ⟨rfl, h⟩

end Masking

namespace Decorations.Framed

open Masking

variable {R : Decorations → Decorations → Prop} [Std.Refl R] [Trans R R R]

omit [Trans R R R] in
theorem report (n : Notice) : Step.Obeys (Keeping R) (report n) :=
  Step.obeys_modify fun _ => ⟨rfl, Std.Refl.refl _⟩

/-- Carrying out decisions creates layers at most, before it ends or fails. -/
theorem carryOut (h : Framed R) (base : String) (ds : List Decision)
    (found : List (String × List Stretch)) :
    Step.Obeys (Keeping R) (carryOut base ds found) := by
  induction ds generalizing found with
  | nil => exact Step.obeys_pure _
  | cons d rest ih =>
    cases d with
    | notice n => exact (report n).bind fun _ => ih found
    | fail fault => exact Step.obeys_throw fault
    | place p =>
      have hrest := ih (addStretch found (keyOf base p) p.stretch)
      simp only [Masking.carryOut]
      cases (found.map (·.1)).contains (keyOf base p) with
      | true => exact hrest
      | false =>
        cases p.own with
        | none => exact hrest
        | some own =>
          refine Step.Obeys.bind (fun m => ?_) fun _ => hrest
          exact keeping_onDecorations (h.getOrCreate _ _ _)

/-- Drawing key by key breaks nothing that drawing one key does not break. -/
theorem renderEach (h : Framed R) (found : List (String × List Stretch)) :
    Step.Obeys (Keeping R) (renderEach found) := by
  induction found with
  | nil => exact Step.obeys_pure _
  | cons s rest ih =>
    refine Step.Obeys.bind (fun m => ?_) fun _ => ih
    exact keeping_onDecorations (h.render _ _ _)

omit [Trans R R R] in
/-- Noting keys leaves the decorations alone. -/
theorem noteKeys (used : List String) : Step.Obeys (Keeping R) (noteKeys used) := by
  intro m
  unfold Masking.noteKeys
  rw [Step.after_of_ok (Step.modifyGet_apply m _)]
  cases m.passKeys <;> exact ⟨rfl, Std.Refl.refl _⟩

/-- Drawing what was decided consists of operations that break nothing. -/
theorem draw (h : Framed R) (base : String) (decided : List Decision) :
    Step.Obeys (Keeping R) (draw base decided) := by
  unfold Masking.draw
  refine (h.carryOut _ _ _).bind fun found => ?_
  refine (h.renderEach _).bind fun _ => ?_
  refine (noteKeys _).bind fun keep => ?_
  refine Step.Obeys.bind (fun m => ?_) fun _ => Step.obeys_pure _
  exact keeping_onDecorations (h.evictAllExcept keep _)

/-- Applying an entry breaks nothing, whether it ends or fails. -/
theorem apply (h : Framed R) (pattern : Pattern) (mask : Mask) (caretStyle : String) :
    Step.Obeys (Keeping R) (apply pattern mask caretStyle) := by
  intro m
  unfold Masking.apply
  rw [Step.after_bind_of_ok (Step.get_apply m)]
  cases hhost : m.editor? with
  | none => exact Std.Refl.refl m
  | some host =>
    have hsnapshot : Keeping R m (Step.after (Masking.onDesk (Desk.snapshot host)) m) :=
      keeping_onDecorations (h.snapshot hhost)
    refine Step.after_bind_rel hsnapshot fun document m₁ hok₁ => ?_
    cases document with
    | none => exact Std.Refl.refl m₁
    | some document =>
      have hcreate : Keeping R m₁ (Step.after
          (onDecorations (Decorations.getOrCreate pattern.source mask.baseLook)) m₁) :=
        keeping_onDecorations (h.getOrCreate _ _ _)
      refine Step.after_bind_rel hcreate fun _ m₂ hok₂ => ?_
      -- the host is still the same when its selections are asked for
      rw [Step.after_of_ok hok₁] at hsnapshot
      rw [Step.after_of_ok hok₂] at hcreate
      have hhost₂ : m₂.editor? = some host :=
        (h.host hcreate.decorations).trans ((h.host hsnapshot.decorations).trans hhost)
      refine Step.after_bind_rel (keeping_onDecorations (h.selections hhost₂)) ?_
      exact fun ends m₃ _ => Step.obeys_get.bind (fun _ => h.draw _ _) m₃

/-- An update breaks nothing that what it consists of does not break. -/
theorem update (h : Framed R) {α : Type} {body : Step Masking α}
    (hbody : Step.Obeys (Keeping R) body) : Step.Obeys (Keeping R) (update body) := by
  have hwhole : Step.Obeys (Keeping R) (do
      let answer ← body
      let m ← get
      if m.editor?.isSome then
        let _ ← onDecorations (Decorations.evictAllExcept (m.passKeys.getD []))
      return answer) := by
    refine hbody.bind fun answer => Step.obeys_get.bind fun m => ?_
    split
    · refine Step.Obeys.bind (fun m => ?_) fun _ => Step.obeys_pure _
      exact keeping_onDecorations (h.evictAllExcept _ _)
    · exact Step.obeys_pure _
  intro m
  have hbegun := hwhole { m with passKeys := some [] }
  unfold Masking.update
  unfold Step.after at hbegun ⊢
  dsimp only at hbegun ⊢
  split at hbegun
  next h => rw [h]; exact ⟨hbegun.scopes, hbegun.decorations⟩
  next h => rw [h]; exact ⟨hbegun.scopes, hbegun.decorations⟩

/-- Entries that cannot be read are reported, and the others are applied. -/
theorem applyEntries (h : Framed R) (caretStyle : String) (entries : List Json) :
    Step.Obeys (Keeping R) (Session.applyEntries caretStyle entries) := by
  induction entries with
  | nil => exact Step.obeys_pure _
  | cons entry rest ih =>
    have hrest (applied : Nat) : Step.Obeys (Keeping R) (do
        return applied + (← Session.applyEntries caretStyle rest)) :=
      ih.bind fun _ => Step.obeys_pure _
    unfold Session.applyEntries
    split
    · exact (h.apply _ _ _).bind fun _ => hrest 1
    · exact (report _).bind fun _ => hrest 0
    · exact Step.obeys_throw _

/-- Rule-sets for other languages are passed over, and the others are applied. -/
theorem applyRules (h : Framed R) (document : Document) (caretStyle : String)
    (rules : List Json) :
    Step.Obeys (Keeping R) (Session.applyRules document caretStyle rules) := by
  induction rules with
  | nil => exact Step.obeys_pure _
  | cons rule rest ih =>
    unfold Session.applyRules
    refine (Step.obeys_ofExcept _).bind fun entries => ?_
    refine (h.applyEntries caretStyle entries).bind fun _ => ?_
    exact ih.bind fun _ => Step.obeys_pure _

end Decorations.Framed

end Conceal
