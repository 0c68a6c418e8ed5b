import Conceal.Proofs.Session.Attribution
import Conceal.Proofs.Session.Calm

/-!
Sessions over whole runs. From a desk whose editors grant every call and have no decorations, every
run keeps the decorations tidy and attributes every layer to an entry of the settings, whatever
happens to the editors, the settings and the grammars. Main statement: `Kept.run`.
-/

namespace Conceal

namespace Session

/-! ## Traces -/

/-- The applications that masking a document makes. -/
def maskTrace (document : Document) (s : Session) : List Application :=
  match ensureScopes document s with
  | .error _ _ => []
  | .ok _ s =>
    Masking.applications s.caretStyle (orders document s.rules)
      { s.masking with passKeys := some [] }

/-- The applications that an update makes. -/
def updateTrace (s : Session) : List Application :=
  match s.editor? with
  | none => []
  | some name =>
    if s.hasLiveEditor && (s.settings.get "enabled").isTruthy then
      match onDesk (Desk.snapshot name) s with
      | .ok (some document) s => maskTrace document s
      | _ => []
    else []

/-- The applications that are made about an event. -/
def traceOf (s : Session) : Event → List Application
  | .pauseOver => if s.waiting then updateTrace { s with waiting := false } else []
  | _ => []

/-- Entries are applied at the end of a pause only. -/
theorem traceOf_eq_nil {e : Event} (h : e ≠ .pauseOver) (s : Session) : s.traceOf e = [] := by
  unfold traceOf
  split
  · exact absurd rfl h
  · rfl

/-- The applications that are made in a run, in order. -/
def trace (s : Session) : List Event → List Application
  | [] => []
  | e :: rest => s.traceOf e ++ trace (Step.after (handle e) s) rest

/-! ## What is kept -/

/-- The decorations are tidy, and their layers are attributed to entries of the settings. -/
def Kept (trace : List Application) (s : Session) : Prop :=
  s.masking.decorations.Tidy (Drew trace) (Board.Attributed s.rules trace)

variable {trace : List Application} {s s' : Session}

/-- On a blank desk nothing has to be attributed. -/
theorem kept_start {settings : Json} {languages : String → Option String} {desk : Desk}
    (hdesk : desk.Blank) (h : start settings languages desk = .ok s) : s.Kept [] := by
  unfold start at h
  cases hsettings : Settings.normalize settings with
  | error fault => rw [hsettings] at h; cases h
  | ok members =>
    rw [hsettings] at h
    cases h
    exact Decorations.tidy_of_blank hdesk fun name handle hdrew => by simp [Drew] at hdrew

/-- Calm changes leave everything attributed. -/
theorem Kept.calm (h : s.Kept trace) (hcalm : Calm s s') : s'.Kept trace := by
  have hdecorations : s'.masking.decorations =
      ⟨s'.desk, s.masking.decorations.host, s.masking.decorations.handles⟩ := by
    rw [← hcalm.host, ← hcalm.handles]
    rfl
  unfold Kept rules
  rw [hdecorations, hcalm.settings]
  exact Decorations.Tidy.calm h hcalm.desk

theorem Kept.quiet {α : Type} (h : s.Kept trace) {act : Step Session α} (hact : Quiet act) :
    (Step.after act s).Kept trace :=
  h.calm (hact s)

theorem onMasking_of_ok {α : Type} {act : Step Masking α} {answer : α} {m : Masking}
    (h : act s.masking = .ok answer m) : onMasking act s = .ok answer { s with masking := m } :=
  Step.on_of_ok h

theorem onMasking_of_error {α : Type} {act : Step Masking α} {fault : Fault} {m : Masking}
    (h : act s.masking = .error fault m) :
    onMasking act s = .error fault { s with masking := m } :=
  Step.on_of_error h

theorem onDecorations_of_ok {α : Type} {act : Step Decorations α} {answer : α} {d : Decorations}
    (h : act s.masking.decorations = .ok answer d) :
    onMasking (Masking.onDecorations act) s = .ok answer { s with masking.decorations := d } :=
  onMasking_of_ok (Masking.onDecorations_of_ok h)

/-- When all decorations are removed, it does not matter which settings they were for. -/
theorem kept_clear {P : Board → Prop} (h : s.masking.decorations.Tidy (Drew trace) P) :
    ∃ s', onMasking (Masking.onDecorations Decorations.clear) s = .ok () s' ∧ s'.Kept trace := by
  obtain ⟨d, hclear, htidy, _⟩ := h.clear (Board.attributed_of_empty s.rules trace)
  exact ⟨_, onDecorations_of_ok hclear, htidy⟩

/-! ## Events -/

theorem canvas_foldl {f : Editor → Signal → Editor}
    (h : ∀ e signal, (f e signal).canvas = e.canvas ∧ (f e signal).alive = e.alive)
    (signals : List Signal) (e : Editor) :
    (signals.foldl f e).canvas = e.canvas ∧ (signals.foldl f e).alive = e.alive := by
  induction signals generalizing e with
  | nil => exact ⟨rfl, rfl⟩
  | cons signal rest ih =>
    obtain ⟨hcanvas, halive⟩ := ih (f e signal)
    exact ⟨hcanvas.trans (h e signal).1, halive.trans (h e signal).2⟩

theorem calm_connect (name : String) (s : Session) : Calm s (s.connect name) := by
  have hfold := canvas_foldl (f := Editor.connect) (fun e signal => by
    unfold Editor.connect; split <;> exact ⟨rfl, rfl⟩) Signal.all
  exact Calm.of_change s name (fun e => (hfold e).1) fun e => (hfold e).2 ▸ id

theorem calm_disconnect (name : String) (s : Session) : Calm s (s.disconnect name) := by
  have hfold := canvas_foldl (f := Editor.disconnect) (fun e signal => by
    unfold Editor.disconnect; split <;> exact ⟨rfl, rfl⟩) Signal.all
  exact Calm.of_change s name (fun e => (hfold e).1) fun e => (hfold e).2 ▸ id

/-- The session's own editor is let go. -/
theorem Kept.release (h : s.Kept trace) {name : String} (hname : s.editor? = some name) :
    (s.release name).Kept trace ∧ (s.release name).editor? = s.editor? := by
  unfold Session.release
  split
  · exact ⟨h.calm (calm_disconnect name s), rfl⟩
  next halive =>
    -- an editor that is gone takes its layers along
    refine ⟨Decorations.Tidy.forgetAll h fun name' hname' => ?_, rfl⟩
    obtain rfl : name = name' := Option.some.inj (hname.symm.trans hname')
    exact Bool.not_eq_true _ ▸ halive

/-- The session's own editor is let go, if there is one. -/
theorem Kept.releaseOwn (h : s.Kept trace) :
    ∃ s', Step.forSome s.editor? (fun old => modify (Session.release old)) s = .ok () s' ∧
      s'.Kept trace ∧ s'.editor? = s.editor? := by
  cases hname : s.editor? with
  | none => exact ⟨s, rfl, h, hname⟩
  | some name =>
    obtain ⟨hkept, heditor⟩ := h.release hname
    exact ⟨_, rfl, hkept, heditor.trans hname⟩

/-- A turn to another editor clears the old one, so that everything on the new one is attributed. -/
theorem Kept.setEditor (h : s.Kept trace) (editor : Option String) :
    (Step.after (setEditor editor) s).Kept trace := by
  unfold Session.setEditor
  rw [Step.after_bind_of_ok (Step.get_apply s)]
  split
  · exact h
  next hne =>
    obtain ⟨s₁, hrelease, hkept₁, heditor⟩ := h.releaseOwn
    have hhost : s₁.masking.decorations.host ≠ editor := fun heq =>
      hne (heq.symm.trans heditor)
    obtain ⟨d, hsetHost, hkept₂, _⟩ := Decorations.Tidy.setHost hkept₁
      (Board.attributed_of_empty s₁.rules trace) editor hhost
    rw [Step.after_bind_of_ok hrelease, Step.after_bind_of_ok (onDecorations_of_ok hsetHost)]
    -- the decorations are done; what follows only asks and connects the new editor
    have hrest (document : Option Document) : Quiet (do
        modify fun s => { s with
          masking.scopes := s.masking.scopes.setDocument document
          stale := true }
        Step.forSome editor fun name => modify (connect name)
        requestGrammar
        modify schedule) := by
      refine Quiet.bind (quiet_modify fun s => Calm.of_eq rfl rfl) fun _ => ?_
      refine Quiet.bind (quiet_forSome fun name => quiet_modify (calm_connect name)) fun _ => ?_
      exact quiet_languageMayChange
    have hkept : Kept trace { s₁ with masking.decorations := d } := hkept₂
    cases editor with
    | none => exact hkept.quiet (hrest none)
    | some name =>
      exact hkept.quiet (Quiet.bind (quiet_onDesk (Desk.Calm.of_snapshot name)) hrest)

/-- Other settings clear the decorations, so that nothing is left of the old rules. -/
theorem Kept.setSettings (h : s.Kept trace) (settings : Json) :
    (Step.after (setSettings settings) s).Kept trace := by
  unfold Session.setSettings
  cases Settings.normalize settings with
  | error fault => exact h
  | ok members =>
    have hread : (Step.ofExcept (.ok members) : Step Session Json.Members) s = .ok members s := rfl
    -- the decorations are still those of the old settings when they are removed
    have htidy : ({ s with settings := members } : Session).masking.decorations.Tidy
        (Drew trace) (Board.Attributed s.rules trace) := h
    obtain ⟨s', hclear, hkept⟩ := kept_clear htidy
    rw [Step.after_bind_of_ok hread, Step.after_bind_of_ok (Step.modify_apply s _),
      Step.after_bind_of_ok hclear]
    exact hkept.calm (Calm.of_eq rfl rfl)

/-- So does the end. -/
theorem Kept.shutDown (h : s.Kept trace) : (Step.after shutDown s).Kept trace := by
  have hstopped : Kept trace { s with waiting := false, polling := false, pending := [] } := h
  obtain ⟨s₁, hrelease, hkept₁, _⟩ := hstopped.releaseOwn
  obtain ⟨s₂, hclear, hkept₂⟩ := kept_clear hkept₁
  unfold Session.shutDown
  rw [Step.after_bind_of_ok (Step.modify_apply s _), Step.after_bind_of_ok (Step.get_apply _),
    Step.after_bind_of_ok hrelease, Step.after_of_ok hclear]
  exact hkept₂

/-! ## Updates -/

/-- Finding the scopes changes neither the settings nor the decorations. -/
theorem ensureScopes_eq (document : Document) (s : Session) :
    (Step.after (ensureScopes document) s).settings = s.settings ∧
      (Step.after (ensureScopes document) s).masking.decorations = s.masking.decorations := by
  unfold ensureScopes
  rw [Step.after_bind_of_ok (Step.get_apply s)]
  dsimp only
  split
  · exact ⟨rfl, rfl⟩
  · rw [Step.after_bind_of_ok (Step.set_apply s _)]
    cases (s.masking.scopes.setDocument (some document)).rebuild.fault <;> exact ⟨rfl, rfl⟩

theorem calm_ensureScopes (document : Document) : Quiet (ensureScopes document) := fun s =>
  Calm.of_eq (ensureScopes_eq document s).1 (ensureScopes_eq document s).2

/-- Quiet operations may follow. -/
theorem Kept.bind_quiet {α β : Type} {x : Step Session α} {f : α → Step Session β}
    (h : (Step.after x s).Kept trace) (hf : ∀ a, Quiet (f a)) :
    (Step.after (x >>= f) s).Kept trace := by
  cases hx : x s with
  | ok a s' =>
    rw [Step.after_of_ok hx] at h
    rw [Step.after_bind_of_ok hx]
    exact h.quiet (hf a)
  | error fault s' =>
    rw [Step.after_of_error hx] at h
    rw [Step.after_bind_of_error hx]
    exact h

/-- The session's editor is there and is asked for its document. -/
theorem Kept.snapshot (h : s.Kept trace) {name : String} (hname : s.editor? = some name)
    (halive : s.desk.isAlive name = true) :
    ∃ b m, s.masking.decorations.Shows b ∧ b.host = name ∧ b.Attributed s.rules trace ∧
      onDesk (Desk.snapshot name) s = .ok (s.desk.document? name) { s with masking := m } ∧
      Masking.Leads s.masking m b s.masking.passKeys := by
  obtain ⟨b, hb, hattributed, rfl⟩ := Decorations.Tidy.shows h hname halive
  obtain ⟨m, hsnapshot, hleads⟩ := Masking.snapshot_ok hb
  exact ⟨b, m, hb, rfl, hattributed, onMasking_of_ok hsnapshot, hleads⟩

/-- An update of a document attributes what it draws to its own applications. -/
theorem Kept.maskDocument (h : s.Kept trace)
    (hhosted : ∃ name, s.editor? = some name ∧ s.desk.isAlive name = true) (document : Document) :
    (Step.after (maskDocument document) s).Kept (trace ++ maskTrace document s) := by
  obtain ⟨hsettings, hdecorations⟩ := ensureScopes_eq document s
  have hscopes := h.quiet (calm_ensureScopes document)
  unfold Session.maskDocument maskTrace
  cases hensure : ensureScopes document s with
  | error fault s₁ =>
    rw [Step.after_of_error hensure] at hscopes
    rw [Step.after_bind_of_error hensure, List.append_nil]
    exact hscopes
  | ok _ s₁ =>
    rw [Step.after_of_ok hensure] at hscopes hsettings hdecorations
    rw [Step.after_bind_of_ok hensure, Step.after_bind_of_ok (Step.get_apply s₁)]
    -- whether or not the update of the masking fails, its trace is that of its applications
    refine Kept.bind_quiet ?_ fun _ => quiet_modify fun s => Calm.of_eq rfl rfl
    have hmasking : s₁.masking.Attributed s₁.rules trace := ⟨hscopes, hdecorations ▸ hhosted⟩
    rw [applyRules_eq, onMasking, Step.after_on]
    exact (Masking.attributed_update hmasking s₁.caretStyle fun x => mem_entriesOf_of_order).tidy

/-- An update of a session that is switched on and whose editor is there. -/
theorem update_of_enabled {name : String} (hname : s.editor? = some name)
    (halive : s.desk.isAlive name = true) (henabled : (s.settings.get "enabled").isTruthy = true) :
    Session.update s =
      (onDesk (Desk.snapshot name) >>= fun document => Step.forSome document maskDocument) s := by
  have hlive : s.hasLiveEditor = true := by rw [hasLiveEditor, hname, Option.any_some, halive]
  unfold Session.update
  rw [Step.bind_of_ok (Step.get_apply s)]
  simp only [hlive, henabled, hname, Bool.not_true, Bool.false_eq_true, if_false]

/-- An update keeps everything attributed, whether it ends or fails. -/
theorem Kept.update (h : s.Kept trace) :
    (Step.after update s).Kept (trace ++ s.updateTrace) := by
  -- an update masks the document, or clears where the session is off, or does nothing
  by_cases hlive : s.hasLiveEditor = true
  · obtain ⟨name, hname, halive⟩ : ∃ name, s.editor? = some name ∧ s.desk.isAlive name = true := by
      simpa [hasLiveEditor, Option.any_eq_true] using hlive
    by_cases henabled : (s.settings.get "enabled").isTruthy = true
    · obtain ⟨b, m, hb, _, _, hsnapshot, hleads⟩ := h.snapshot hname halive
      have hkept := h.quiet (quiet_onDesk (Desk.Calm.of_snapshot name))
      rw [Step.after_of_ok hsnapshot] at hkept
      rw [Step.after, update_of_enabled hname halive henabled, ← Step.after,
        Step.after_bind_of_ok hsnapshot, updateTrace, hname]
      simp only [hlive, henabled, Bool.and_true, if_true, hsnapshot]
      cases s.desk.document? name with
      | none => rw [List.append_nil]; exact hkept
      | some document =>
        exact hkept.maskDocument (hleads.hosted hb rfl ⟨name, hname, halive⟩) document
    · obtain ⟨s', hclear, hkept⟩ := kept_clear h
      rw [updateTrace, hname, Session.update, Step.after_bind_of_ok (Step.get_apply s)]
      simp only [hlive, henabled, Bool.not_true, Bool.not_false, Bool.false_eq_true, if_false,
        if_true, Bool.and_false, List.append_nil]
      rw [Step.after_of_ok hclear]
      exact hkept
  · have hnone : s.updateTrace = [] := by
      unfold updateTrace
      cases s.editor? <;> simp [hlive]
    rw [hnone, List.append_nil, Session.update, Step.after_bind_of_ok (Step.get_apply s)]
    simp only [hlive, Bool.not_false, if_true]
    exact h

/-! ## Runs -/

/-- So does the end of a pause. -/
theorem Kept.fire (h : s.Kept trace) :
    (Step.after fire s).Kept (trace ++ s.traceOf .pauseOver) := by
  rw [traceOf, Session.fire, Step.after_bind_of_ok (Step.get_apply s)]
  by_cases hwaiting : s.waiting = true
  · rw [if_pos hwaiting, if_pos hwaiting, Step.after_bind_of_ok (Step.modify_apply s _)]
    exact Kept.update (s := { s with waiting := false }) h
  · rw [if_neg hwaiting, if_neg hwaiting, List.append_nil]
    exact h

/-- What happens once keeps the decorations tidy and attributed. -/
theorem Kept.handle (h : s.Kept trace) (e : Event) :
    (Step.after (handle e) s).Kept (trace ++ s.traceOf e) := by
  by_cases he : e = .pauseOver
  · rw [he]
    exact h.fire
  · rw [traceOf_eq_nil he, List.append_nil]
    cases e with
    | pauseOver => exact absurd rfl he
    | turnTo editor => exact h.setEditor editor
    | settingsChanged settings => exact h.setSettings settings
    | closed => exact h.shutDown
    | _ => exact h.quiet (quiet_handle rfl)

/-- Every run keeps the decorations tidy and attributed. -/
theorem Kept.run (h : s.Kept trace) (events : List Event) :
    (s.run events).Kept (trace ++ s.trace events) := by
  induction events generalizing s trace with
  | nil => rw [Session.trace, List.append_nil]; exact h
  | cons e rest ih =>
    rw [Session.trace, ← List.append_assoc]
    exact ih (h.handle e)

/-- Some settings, a blank desk and some events lead to a session, and the events made the
applications of a trace. -/
def Reached (trace : List Application) (s : Session) : Prop :=
  ∃ settings languages desk s₀ events, Desk.Blank desk ∧
    start settings languages desk = .ok s₀ ∧ s₀.run events = s ∧ s₀.trace events = trace

/-- Everything is attributed in every session that is reached. -/
theorem Reached.kept (h : s.Reached trace) : s.Kept trace := by
  obtain ⟨settings, languages, desk, s₀, events, hdesk, hstart, rfl, rfl⟩ := h
  exact (kept_start hdesk hstart).run events

/-! ## A small session -/

/-- Settings with one rule for all documents. -/
def always (entries : List Json) : Json :=
  .obj [("masks", .arr [.obj [("selector", .str "*"), ("patterns", .arr entries)]])]

/-- An entry with a text of its own for some matches, and one with the same text for all. -/
def letterEntries : List Json :=
  [.obj [("pattern", .str "b|c"), ("replace", .obj [("b", .str "y"), ("c", .str "z")])],
    .obj [("pattern", .str "a"), ("replace", .str "x")]]

/-- The session turns to the editor and masks its document. -/
def opening : List Event := [.turnTo (some "e"), .pauseOver]

/-- A start that succeeds with some property gives a session with it. -/
theorem exists_start {settings : Json} {languages : String → Option String} {desk : Desk}
    (p : Session → Bool) (h : (start settings languages desk).toOption.any p = true) :
    ∃ s₀, start settings languages desk = .ok s₀ ∧ p s₀ = true := by
  cases hstart : start settings languages desk with
  | error fault => rw [hstart] at h; cases h
  | ok s₀ =>
    rw [hstart] at h
    exact ⟨s₀, rfl, h⟩

theorem exists_started (settings : Json) (p : Session → Bool)
    (h : (start settings (fun _ => none) Desk.twoLetters).toOption.any p = true) :
    ∃ s₀, start settings (fun _ => none) Desk.twoLetters = .ok s₀ ∧ p s₀ = true :=
  exists_start p h

theorem reached_of_started {settings : Json} {s₀ : Session}
    (h : start settings (fun _ => none) Desk.twoLetters = .ok s₀) (events : List Event) :
    Reached (s₀.trace events) (s₀.run events) :=
  ⟨settings, _, Desk.twoLetters, s₀, events, Desk.twoLetters_blank, h, rfl, rfl⟩

end Session

end Conceal
