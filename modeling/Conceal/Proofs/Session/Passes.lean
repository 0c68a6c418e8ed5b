import Conceal.Proofs.Session.Host

/-!
Where an update comes to mask a document. When the pause is over and the host is there, it is asked
for its document; then the scopes are found, which keeps them where nothing has changed and can fail;
then the rules are applied. Main statements: `finds` for the scopes, and `fires` for all that the end
of the pause can come to.
-/

namespace Conceal.Session

/-! ## Scopes -/

/-- What finding the scopes of a document can come to. -/
inductive Finds (document : Document) (s : Session) : EStateM.Result Fault Session Unit → Prop
  /-- They are taken to be found already. -/
  | kept (hfresh : s.stale = false) (hkey : s.tokenizedFor = some (s.scopesKey document)) :
      Finds document s
        (.ok () { s with masking.scopes := s.masking.scopes.setDocument (some document) })
  | found {r : LineScopes.Rebuilt}
      (hrebuild : (s.masking.scopes.setDocument (some document)).rebuild = r)
      (hok : r.fault = none) :
      Finds document s
        (.ok () { s with
          masking.scopes := r.scopes
          masking.notices := s.masking.notices ++ r.notice.toList
          stale := false
          tokenizedFor := some (document.revision, r.scopes.tokenizer.map Tokenizer.serial) })
  | failed {r : LineScopes.Rebuilt} {fault : Fault}
      (hrebuild : (s.masking.scopes.setDocument (some document)).rebuild = r)
      (hfault : r.fault = some fault) :
      Finds document s
        (.error fault { s with
          masking.scopes := r.scopes
          masking.notices := s.masking.notices ++ r.notice.toList })

/-- Finding the scopes comes to one of a few things. -/
theorem finds (document : Document) (s : Session) :
    Finds document s (ensureScopes document s) := by
  unfold ensureScopes
  rw [Step.bind_of_ok (Step.get_apply s)]
  dsimp only
  split
  next hkept =>
    simp only [Bool.and_eq_true, Bool.not_eq_true', decide_eq_true_eq] at hkept
    exact .kept hkept.1 hkept.2
  · rw [Step.bind_of_ok (Step.set_apply s _)]
    cases hfault : (s.masking.scopes.setDocument (some document)).rebuild.fault with
    | none => exact .found rfl hfault
    | some fault => exact .failed rfl hfault

/-! ## The end of the pause -/

/-- The session when the pause is over. -/
def stopped (s : Session) : Session := { s with waiting := false }

/-- The document that an update looks at when the pause is over, and the session that has asked for
it. -/
def looked? (s : Session) : Option (Document × Session) :=
  match s.host? with
  | none => none
  | some name =>
    if s.waiting && (s.settings.get "enabled").isTruthy then
      match onDesk (Desk.snapshot name) s.stopped with
      | .ok (some document) asked => some (document, asked)
      | _ => none
    else none

/-- The document that an update begins to mask, and the session then. -/
def begun? (s : Session) : Option (Document × Session) :=
  s.looked?.bind fun (document, asked) =>
    match ensureScopes document asked with
    | .ok _ s => some (document, s)
    | .error _ _ => none

/-- Masks a document whose scopes are found. -/
def mask (document : Document) : Step Session Unit := do
  let s ← get
  let applied ← onMasking (Masking.update (applyRules document s.caretStyle s.rules))
  modify (announce (.masked applied))

variable {s s' asked : Session} {document : Document}

theorem maskDocument_eq (document : Document) :
    maskDocument document = ensureScopes document >>= fun _ => mask document := rfl

/-- What an update looks at is the document of the host. -/
theorem looked?_eq_some (h : s.looked? = some (document, asked)) :
    ∃ name, s.host? = some name ∧ s.waiting = true ∧
      (s.settings.get "enabled").isTruthy = true ∧ s.desk.document? name = some document ∧
      onDesk (Desk.snapshot name) s.stopped = .ok (some document) asked := by
  unfold looked? at h
  split at h
  · cases h
  next name hname =>
    split at h
    next hon =>
      rw [Bool.and_eq_true] at hon
      have hsnapshot := onDesk_snapshot_eq name s.stopped
      split at h
      next document' asked' hok =>
        cases h
        rw [hok] at hsnapshot
        injection hsnapshot with hdocument
        exact ⟨name, hname, hon.1, hon.2, hdocument.symm, hok⟩
      · cases h
    · cases h

/-- At the end of the pause an update runs. -/
theorem fire_of_waiting (h : s.waiting = true) : fire s = update s.stopped := by
  unfold fire
  rw [Step.bind_of_ok (Step.get_apply s), if_pos h]
  rfl

/-- Without a host there is no update. -/
theorem update_of_no_host (h : s.host? = none) : update s = .ok () s := by
  unfold update
  rw [Step.bind_of_ok (Step.get_apply s), hasLiveEditor_eq, h]
  rfl

/-- An update of a session that is switched off. -/
theorem update_of_disabled {name : String} (hhost : s.host? = some name)
    (hdisabled : ¬ (s.settings.get "enabled").isTruthy = true) :
    update s = onMasking (Masking.onDecorations Decorations.clear) s := by
  unfold update
  rw [Step.bind_of_ok (Step.get_apply s), hasLiveEditor_eq, hhost]
  simp only [Option.isSome_some, Bool.not_true, Bool.false_eq_true, if_false, hdisabled,
    Bool.not_false, if_true]

/-- What an update does once it has looked at a document. -/
theorem fire_of_looked (h : s.looked? = some (document, asked)) :
    fire s = maskDocument document asked := by
  obtain ⟨name, hhost, hwaiting, henabled, -, hok⟩ := looked?_eq_some h
  obtain ⟨hname, halive⟩ := host?_eq_some.mp hhost
  have hupdate := update_of_enabled (s := s.stopped) hname halive henabled
  rw [fire_of_waiting hwaiting, hupdate, Step.bind_of_ok hok]
  rfl

/-- An update has begun once it has looked at the document and found its scopes. -/
theorem begun?_eq_some (h : s.begun? = some (document, s')) :
    ∃ asked, s.looked? = some (document, asked) ∧ ensureScopes document asked = .ok () s' := by
  obtain ⟨⟨document', asked⟩, hlooked, hscopes⟩ := Option.bind_eq_some_iff.mp h
  cases hensure : ensureScopes document' asked with
  | error fault s₁ => simp only [hensure] at hscopes; cases hscopes
  | ok _ s₁ =>
    simp only [hensure] at hscopes
    cases hscopes
    exact ⟨asked, hlooked, hensure⟩

/-- What an update does once it has begun to mask a document. -/
theorem fire_of_begun (h : s.begun? = some (document, s')) : fire s = mask document s' := by
  obtain ⟨asked, hlooked, hensure⟩ := begun?_eq_some h
  rw [fire_of_looked hlooked, maskDocument_eq, Step.bind_of_ok hensure]

/-- The document that an update begins to mask is still that of the host. -/
theorem document_of_begun (h : s.begun? = some (document, s')) :
    s'.host?.bind s'.desk.document? = some document := by
  obtain ⟨asked, hlooked, hensure⟩ := begun?_eq_some h
  obtain ⟨name, hhost, -, -, hdocument, hok⟩ := looked?_eq_some hlooked
  have hhost' : s.stopped.host? = some name := hhost
  have hasked := minds_snapshot hhost'
  have hfound := minds_ensureScopes document asked
  rw [Step.after_of_ok hok] at hasked
  rw [Step.after_of_ok hensure] at hfound
  have hminds : Minds s.stopped s' := hasked.trans hfound
  rw [hminds.host?_eq, hhost', Option.bind_some, hminds.desk.document?_eq]
  exact hdocument

/-- What the end of the pause can come to. -/
inductive Fires (s : Session) : Session → Prop
  /-- The session was not waiting, or there is no host. -/
  | idle (waiting : Bool) : Fires s { s with waiting }
  /-- Masking is switched off. -/
  | off : Fires s
      (Step.after (onMasking (Masking.onDecorations Decorations.clear)) s.stopped)
  /-- The host has no document. -/
  | blank (name : String) : Fires s
      (Step.after (onDesk (Desk.snapshot name)) s.stopped)
  /-- The scopes cannot be found. -/
  | lost {document : Document} {asked s' : Session} {fault : Fault}
      (hlooked : s.looked? = some (document, asked))
      (hfailed : ensureScopes document asked = .error fault s') : Fires s s'
  | masks {document : Document} {asked s' : Session}
      (hlooked : s.looked? = some (document, asked))
      (hfound : ensureScopes document asked = .ok () s') :
      Fires s (Step.after (mask document) s')

/-- Without a document to look at, an update at most removes all decorations. -/
theorem fires_of_unlooked (h : s.looked? = none) (hwaiting : s.waiting = true) :
    Fires s (Step.after update s.stopped) := by
  cases hhost : s.host? with
  | none =>
    rw [Step.after_of_ok (update_of_no_host (s := s.stopped) hhost)]
    exact .idle false
  | some name =>
    by_cases henabled : (s.settings.get "enabled").isTruthy = true
    · -- the host has been asked for its document, and has none
      have hblank : onDesk (Desk.snapshot name) s.stopped =
          .ok none (Step.after (onDesk (Desk.snapshot name)) s.stopped) := by
        have hsnapshot := onDesk_snapshot_eq name s.stopped
        rw [looked?, hhost] at h
        simp only [hwaiting, henabled, Bool.and_self, if_true] at h
        rw [hsnapshot] at h ⊢
        cases hdocument : s.stopped.desk.document? name with
        | none => rfl
        | some document => rw [hdocument] at h; cases h
      obtain ⟨hname, halive⟩ := host?_eq_some.mp hhost
      rw [Step.after, update_of_enabled (s := s.stopped) hname halive henabled, ← Step.after,
        Step.after_bind_of_ok hblank]
      exact .blank name
    · rw [Step.after, update_of_disabled (s := s.stopped) hhost henabled]
      exact .off

/-- The end of a pause comes to one of a few things. -/
theorem fires (s : Session) : Fires s (Step.after fire s) := by
  cases hlooked : s.looked? with
  | some looked =>
    obtain ⟨document, asked⟩ := looked
    rw [Step.after, fire_of_looked hlooked, ← Step.after, maskDocument_eq]
    cases hensure : ensureScopes document asked with
    | error fault s' =>
      rw [Step.after_bind_of_error hensure]
      exact .lost hlooked hensure
    | ok _ s' =>
      rw [Step.after_bind_of_ok hensure]
      exact .masks hlooked hensure
  | none =>
    by_cases hwaiting : s.waiting = true
    · rw [Step.after, fire_of_waiting hwaiting, ← Step.after]
      exact fires_of_unlooked hlooked hwaiting
    · have hidle : fire s = .ok () s := by
        unfold fire
        rw [Step.bind_of_ok (Step.get_apply s), if_neg hwaiting]
        rfl
      rw [Step.after_of_ok hidle]
      exact .idle s.waiting

end Conceal.Session
