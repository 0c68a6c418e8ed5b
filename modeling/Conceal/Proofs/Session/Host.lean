import Conceal.Proofs.Masking.Contact
import Conceal.Proofs.Session.History

/-!
The host of a session: its editor while that is there. Requests for grammars and updates contact
nobody else. Another editor becomes the host in steps: the old one is let go, its decorations are
removed, and if that does not fail the new one is taken up. Main statements: `minds_requestGrammar`,
`minds_fire` and `after_setEditor`.
-/

namespace Conceal

namespace Session

variable {s s' : Session} {name : String}

/-! ## Whom a session contacts by itself -/

/-- The later session has the same editor, and nobody was contacted but the host. -/
structure Minds (s s' : Session) : Prop where
  editor : s'.editor? = s.editor?
  desk : s.desk.Meets s.host? s'.desk

theorem Minds.refl (s : Session) : Minds s s := ⟨rfl, Desk.Meets.refl _ _⟩

/-- A session that minds its host has the same one afterwards. -/
theorem Minds.host?_eq (h : Minds s s') : s'.host? = s.host? := by
  have halive : s'.desk.isAlive = s.desk.isAlive := funext h.desk.isAlive_eq
  rw [host?, host?, h.editor, halive]

theorem Minds.trans {s'' : Session} (h : Minds s s') (h' : Minds s' s'') : Minds s s'' :=
  ⟨h'.editor.trans h.editor, h.desk.trans (h.host?_eq ▸ h'.desk)⟩

instance : Std.Refl Minds := ⟨Minds.refl⟩

instance : Trans Minds Minds Minds := ⟨Minds.trans⟩

theorem Minds.of_eq (h : s'.masking.decorations = s.masking.decorations) : Minds s s' := by
  have hdesk : s'.desk = s.desk := congrArg Decorations.desk h
  exact ⟨congrArg Decorations.host h, hdesk ▸ Desk.Meets.refl _ _⟩

/-- Work on the decorations of the host. -/
theorem Minds.of_works (h : s.masking.decorations.Works s'.masking.decorations)
    (hhost : s.host? = some name) : Minds s s' := by
  have heditor : s.host? = s.masking.decorations.host :=
    hhost.trans (host?_eq_some.mp hhost).1.symm
  exact ⟨h.host, heditor ▸ h.desk⟩

/-- Work with the host contacts nobody else. -/
theorem minds_onMasking {α : Type} {act : Step Masking α}
    (h : s.masking.Works (Step.after act s.masking)) (hhost : s.host? = some name) :
    Minds s (Step.after (onMasking act) s) := by
  rw [onMasking, Step.after_on]
  exact Minds.of_works h.decorations hhost

/-- The host is asked for its document. -/
theorem minds_snapshot (hhost : s.host? = some name) :
    Minds s (Step.after (onDesk (Desk.snapshot name)) s) :=
  minds_onMasking
    (Masking.works_onDesk (host?_eq_some.mp hhost).1 (Desk.meets_snapshot name)) hhost

theorem minds_requestGrammar : Step.Obeys Minds requestGrammar :=
  obeys_requestGrammar (fun _ => Minds.of_eq rfl) (fun _ _ => minds_snapshot)
    (fun _ _ => Minds.of_eq rfl) (fun _ => Minds.of_eq rfl) (fun _ _ => Minds.of_eq rfl)

theorem minds_ensureScopes (document : Document) : Step.Obeys Minds (ensureScopes document) :=
  fun s => Minds.of_eq (ensureScopes_eq document s).2

/-- Masking a document contacts nobody but the host. -/
theorem minds_maskDocument (document : Document) (hhost : s.host? = some name) :
    Minds s (Step.after (maskDocument document) s) := by
  have hscopes := minds_ensureScopes document s
  unfold maskDocument
  refine Step.after_bind_rel hscopes fun _ s₁ hok => ?_
  rw [Step.after_of_ok hok] at hscopes
  rw [Step.after_bind_of_ok (Step.get_apply s₁)]
  -- finding the scopes has left the host where it was
  have hhost₁ : s₁.host? = some name := hscopes.host?_eq.trans hhost
  have hbody := works_applyRules document s₁.caretStyle s₁.rules
  refine Step.after_bind_rel
    (minds_onMasking (Masking.works_update hbody s₁.masking) hhost₁) fun _ _ _ => ?_
  exact Minds.of_eq rfl

/-- Nor does an update. -/
theorem minds_update : Step.Obeys Minds update := by
  intro s
  unfold update
  rw [Step.after_bind_of_ok (Step.get_apply s), hasLiveEditor_eq]
  cases hhost : s.host? with
  | none => exact Minds.refl s
  | some name =>
    simp only [Option.isSome_some, Bool.not_true, Bool.false_eq_true, if_false,
      (host?_eq_some.mp hhost).1]
    split
    · exact minds_onMasking (Masking.works_onDecorations (Decorations.works_clear _)) hhost
    · have hsnapshot := minds_snapshot hhost
      refine Step.after_bind_rel hsnapshot fun document s₁ hok => ?_
      rw [Step.after_of_ok hok] at hsnapshot
      cases document with
      | none => exact Minds.refl s₁
      | some document => exact minds_maskDocument document (hsnapshot.host?_eq.trans hhost)

/-- Nor does the end of a pause. -/
theorem minds_fire : Step.Obeys Minds fire := by
  unfold fire
  refine Step.obeys_get.bind fun s => ?_
  split
  · exact Step.Obeys.bind (Step.obeys_modify fun _ => Minds.of_eq rfl) fun _ => minds_update
  · exact Step.obeys_pure _

theorem minds_poll (s : Session) : Minds s s.poll :=
  rel_poll (fun _ _ _ _ => Minds.of_eq rfl) (fun _ _ _ => Minds.of_eq rfl) s

/-! ## Another host -/

/-- The later session differs in its decorations alone, and they have the same host. -/
structure Redecorates (s s' : Session) : Prop where
  rest : s' = { s with masking.decorations := s'.masking.decorations }
  editor : s'.editor? = s.editor?

theorem Redecorates.refl (s : Session) : Redecorates s s := ⟨rfl, rfl⟩

/-- Changes of the decorations, one after the other, are one. -/
theorem Redecorates.trans {s'' : Session} (h : Redecorates s s') (h' : Redecorates s' s'') :
    Redecorates s s'' := by
  refine ⟨?_, h'.editor.trans h.editor⟩
  rw [h'.rest, h.rest]

/-- Clearing changes the decorations alone. -/
theorem redecorates_clear (s : Session) :
    Redecorates s (Step.after (onMasking (Masking.onDecorations Decorations.clear)) s) := by
  have hhost := (Decorations.works_clear s.masking.decorations).host
  rw [onMasking, Step.after_on, Masking.onDecorations, Step.after_on]
  exact ⟨rfl, hhost⟩

/-- Connections are part of the desk, which the decorations hold. -/
theorem redecorates_release (name : String) (s : Session) : Redecorates s (s.release name) := by
  unfold release
  split <;> exact ⟨rfl, rfl⟩

/-- The session after it has let go of its editor. -/
def letGo (s : Session) : Session := s.editor?.elim s fun old => s.release old

/-- Letting go of the editor is disconnecting it, if there is one. -/
theorem forSome_release (s : Session) :
    Step.forSome s.editor? (fun old => modify (release old)) s = .ok () s.letGo := by
  unfold letGo
  cases s.editor? <;> rfl

theorem redecorates_letGo (s : Session) : Redecorates s s.letGo := by
  unfold letGo
  cases s.editor? with
  | none => exact Redecorates.refl s
  | some old => exact redecorates_release old s

/-- The session that waits for nothing any more. -/
def atRest (s : Session) : Session := { s with waiting := false, polling := false, pending := [] }

/-- The end clears the decorations of a session that is at rest and lets go of its editor. -/
theorem after_shutDown (s : Session) : Step.after shutDown s =
    Step.after (onMasking (Masking.onDecorations Decorations.clear)) s.atRest.letGo := by
  unfold shutDown
  rw [Step.after_bind_of_ok (Step.modify_apply s _)]
  change Step.after (get >>= _) s.atRest = _
  rw [Step.after_bind_of_ok (Step.get_apply s.atRest),
    Step.after_bind_of_ok (forSome_release s.atRest)]

theorem redecorates_shutDown (s : Session) : Redecorates s.atRest (Step.after shutDown s) := by
  rw [after_shutDown]
  exact (redecorates_letGo s.atRest).trans (redecorates_clear s.atRest.letGo)

/-- What is done when the document of a new host is known: its signals are connected, and its
grammar is asked for. -/
def settleIn (editor : Option String) (document : Option Document) : Step Session Unit := do
  modify fun s => { s with
    masking.scopes := s.masking.scopes.setDocument document
    stale := true }
  Step.forSome editor fun name => modify (connect name)
  languageMayChange

/-- An editor that has become the host is asked for its document. -/
def takeUp (editor : Option String) : Step Session Unit := do
  let document ←
    match editor with
    | some name => onDesk (Desk.snapshot name)
    | none => pure none
  settleIn editor document

theorem quiet_settleIn (editor : Option String) (document : Option Document) :
    Quiet (settleIn editor document) := by
  refine Quiet.bind (quiet_modify fun s => Calm.of_eq rfl rfl) fun _ => ?_
  exact Quiet.bind (quiet_forSome fun name => quiet_modify (calm_connect name)) fun _ =>
    quiet_languageMayChange

/-- Taking up an editor does nothing to decorations. -/
theorem quiet_takeUp (editor : Option String) : Quiet (takeUp editor) := by
  cases editor with
  | none => exact quiet_settleIn none none
  | some name =>
    exact Quiet.bind (quiet_onDesk (Desk.Calm.of_snapshot name)) (quiet_settleIn (some name))

/-- The session has the editor already. -/
theorem setEditor_self (s : Session) : setEditor s.editor? s = .ok () s := by
  unfold setEditor
  rw [Step.bind_of_ok (Step.get_apply s)]
  simp only [if_true]
  rfl

/-- Turning to the same editor changes nothing. -/
theorem setEditor_of_eq {editor : Option String} (heq : editor = s.editor?) :
    Step.after (setEditor editor) s = s := by
  rw [heq, Step.after_of_ok s.setEditor_self]

/-- Turning to another editor lets go of the old one, clears it, and takes up the new one. -/
theorem setEditor_eq {editor : Option String} (hne : editor ≠ s.editor?) : setEditor editor s =
    (onMasking (Masking.onDecorations (Decorations.setHost editor)) >>= fun _ => takeUp editor)
      s.letGo := by
  unfold setEditor
  rw [Step.bind_of_ok (Step.get_apply s)]
  simp only [if_neg hne]
  rw [Step.bind_of_ok (forSome_release s)]
  rfl

/-- The old editor is let go; when its decorations can be removed the other one is taken up. -/
theorem setEditor_cases {editor : Option String} (hne : editor ≠ s.editor?) :
    (∃ d, Decorations.clear s.letGo.masking.decorations = .ok () d ∧ setEditor editor s =
      takeUp editor { s.letGo with masking.decorations := { d with host := editor } }) ∨
    ∃ fault d, Decorations.clear s.letGo.masking.decorations = .error fault d ∧
      setEditor editor s = .error fault { s.letGo with masking.decorations := d } := by
  have hhost : s.letGo.masking.decorations.host ≠ editor := fun heq =>
    hne (heq.symm.trans (redecorates_letGo s).editor)
  rw [setEditor_eq hne]
  rcases Decorations.setHost_cases _ hhost with ⟨d, hclear, hset⟩ | ⟨fault, d, hclear, hset⟩
  · exact Or.inl ⟨d, hclear, Step.bind_of_ok (onDecorations_of_ok hset)⟩
  · have hfailed : onMasking (Masking.onDecorations (Decorations.setHost editor)) s.letGo =
        .error fault { s.letGo with masking.decorations := d } :=
      onMasking_of_error (Step.on_of_error hset)
    exact Or.inr ⟨fault, d, hclear, Step.bind_of_error hfailed⟩

/-- The session turns to another editor, or fails on the way and keeps the old one. -/
theorem after_setEditor {editor : Option String} (hne : editor ≠ s.editor?) :
    (∃ d, Decorations.clear s.letGo.masking.decorations = .ok () d ∧
      Step.after (setEditor editor) s =
        Step.after (takeUp editor) { s.letGo with masking.decorations := { d with host := editor } })
    ∨ ∃ fault d, Decorations.clear s.letGo.masking.decorations = .error fault d ∧
      Step.after (setEditor editor) s = { s.letGo with masking.decorations := d } ∧
      Redecorates s (Step.after (setEditor editor) s) := by
  rcases setEditor_cases hne with ⟨d, hclear, hset⟩ | ⟨fault, d, hclear, hset⟩
  · exact Or.inl ⟨d, hclear, by rw [Step.after, hset, Step.after]⟩
  · have hkept : d.host = s.letGo.editor? := by
      have hworks := Decorations.works_clear s.letGo.masking.decorations
      rw [Step.after_of_error hclear] at hworks
      exact hworks.host
    have hafter := Step.after_of_error hset
    exact Or.inr ⟨fault, d, hclear, hafter, hafter ▸ (redecorates_letGo s).trans ⟨rfl, hkept⟩⟩

end Session

end Conceal
