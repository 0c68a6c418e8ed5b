import Conceal.Proofs.Session.History

/-!
What an update leaves on the host: one layer for every selected entry, and one for every text of its
own replacement that is masked somewhere, with the look of that entry and the stretches decided for
it, and no other. What happened before makes no difference.
-/

namespace Conceal

namespace Masking

variable {m : Masking} {caretStyle name : String} {document : Document}

/-- What entries draw is what they draw for the scene before the host. Its selections are none if
they cannot be read, which lets every entry fail. -/
private theorem mapM_drawingOf {xs : List Entry} {drawings : List (List Drawn)}
    (hname : m.editor? = some name) (hdocument : m.decorations.desk.document? name = some document)
    (h : xs.mapM (m.drawingOf caretStyle) = .ok drawings) :
    xs.mapM (·.drawing ⟨document, (m.decorations.desk.ends name).toOption.getD [], m.scopes,
      caretStyle⟩) = .ok drawings := by
  cases hends : m.decorations.desk.ends name with
  | ok ends =>
    have hdrawing : m.drawingOf caretStyle =
        (·.drawing ⟨document, ends, m.scopes, caretStyle⟩) := by
      funext x
      simp only [drawingOf, scene?, hname, hdocument, hends, Except.map]
    rw [hdrawing] at h
    exact h
  | error fault =>
    cases xs with
    | nil => exact h
    | cons x rest =>
      have hfail : m.drawingOf caretStyle x = .error fault := by
        simp only [drawingOf, scene?, hname, hdocument, hends, Except.map]
      -- the first entry fails already
      rw [List.mapM_cons, hfail] at h
      cases h

end Masking

namespace Session

/-- What masks are decided for in a session whose editor shows a document, given its scopes. -/
def sceneOf (s : Session) (name : String) (document : Document) (scopes : LineScopes) : Scene where
  document
  ends := (s.desk.ends name).toOption.getD []
  scopes
  caretStyle := s.caretStyle

variable {s s' : Session} {b : Board} {name : String} {document : Document}

/-- The caret style depends on the settings and the editor's face alone. -/
theorem caretStyle_eq (hsettings : s'.settings = s.settings) (hname : s.editor? = some name)
    (hname' : s'.editor? = some name) (hredrawn : Desk.Redrawn name s.desk s'.desk) :
    s'.caretStyle = s.caretStyle := by
  have hstyle := congrArg (Option.map Face.caretStyle) hredrawn.face
  rw [Option.map_map, Option.map_map] at hstyle
  unfold caretStyle
  rw [hsettings, hname, hname', Option.bind_some, Option.bind_some]
  exact congrArg (fun own => Json.text (((own.getD Json.null).orElse
    (s.settings.get "cursor_style")).orElse (.str "line"))) hstyle

/-- So does what an update sees. -/
theorem sceneOf_eq (hsettings : s'.settings = s.settings) (hname : s.editor? = some name)
    (hname' : s'.editor? = some name) (hredrawn : Desk.Redrawn name s.desk s'.desk)
    (document : Document) (scopes : LineScopes) :
    s'.sceneOf name document scopes = s.sceneOf name document scopes := by
  have hcaret := caretStyle_eq hsettings hname hname' hredrawn
  rw [sceneOf, sceneOf, hcaret, hredrawn.ends_eq]

/-- Masking a document of the host, unless it fails, leaves the drawings of the selected entries on
the board. -/
theorem maskDocument_ok (hb : s.masking.decorations.Shows b)
    (hkeys : ((looksOf s.rules).map (·.1)).Nodup)
    (hdocument : s.desk.document? b.host = some document)
    (hok : maskDocument document s = .ok () s') :
    ∃ b' drawings, s'.masking.decorations.Shows b' ∧
      (selected document s.rules).mapM
        (·.drawing (s.sceneOf b.host document s'.masking.scopes)) = .ok drawings ∧
      b'.Bears drawings.flatten ∧ (drawings.flatten.map Drawn.key).Nodup ∧
      (∀ d ∈ drawings.flatten, (d.key, d.look) ∈ looksOf s.rules) ∧
      b.Follows (looksOf s.rules) b' := by
  obtain ⟨hsettings, hdecorations⟩ := ensureScopes_eq document s
  unfold maskDocument at hok
  cases hensure : ensureScopes document s with
  | error fault s₁ => rw [Step.bind_of_error hensure] at hok; cases hok
  | ok _ s₁ =>
    rw [Step.after_of_ok hensure] at hsettings hdecorations
    have hname₁ : s₁.editor? = some b.host := (congrArg _ hdecorations).trans hb.host
    have hrules : s₁.rules = s.rules := by rw [rules, hsettings, rules]
    have hdesk : s₁.desk = s.desk := congrArg Decorations.desk hdecorations
    have hcaret : s₁.caretStyle = s.caretStyle :=
      caretStyle_eq hsettings hb.host hname₁ (hdesk ▸ Desk.Redrawn.refl _ _)
    rw [Step.bind_of_ok hensure, Step.bind_of_ok (Step.get_apply s₁), applyRules_eq, hrules,
      hcaret] at hok
    -- what may be applied is part of what the settings have, so its keys are distinct too
    have hsub := looks_orders_sublist document s.rules
    have hnodup := (hsub.map (·.1)).nodup hkeys
    have hspec := Masking.update_spec s.caretStyle (orders document s.rules)
      (m := s₁.masking) (hdecorations ▸ hb) hnodup
    cases hdrawing : s₁.masking.drawingsOf s.caretStyle (orders document s.rules) with
    | error fault =>
      rw [hdrawing] at hspec
      obtain ⟨m, hupdate⟩ := hspec
      rw [Step.bind_of_error (onMasking_of_error hupdate)] at hok
      cases hok
    | ok drawing =>
      rw [hdrawing] at hspec
      obtain ⟨applied, m, b', hupdate, hbears, hleads, hfollows⟩ := hspec
      rw [Step.bind_of_ok (onMasking_of_ok hupdate)] at hok
      cases hok
      obtain ⟨hfail, drawings, hmap, rfl⟩ := Masking.drawingsOf_eq_ok hdrawing
      obtain ⟨hnodup, hlooks⟩ := Masking.nodup_drawingsOf hdrawing hnodup
      refine ⟨b', drawings, hleads.shows, ?_, hbears, hnodup, fun d hd => hsub.subset (hlooks d hd),
        hfollows.mono hsub.subset⟩
      -- no entry has failed, so all that are selected were applied
      have hdocument₁ : s₁.masking.decorations.desk.document? b.host = some document :=
        (congrArg (Desk.document? · b.host) hdesk).trans hdocument
      have hmap' := Masking.mapM_drawingOf hname₁ hdocument₁ hmap
      rw [entries_orders hfail, ← hleads.scopes] at hmap'
      have hends : s₁.masking.decorations.desk.ends b.host = s.desk.ends b.host :=
        congrArg (Desk.ends · b.host) hdesk
      rw [hends] at hmap'
      exact hmap'

/-- Whatever has happened to a session: after an update that does not fail its editor has one layer
for every selected entry and one for every text of its own replacement that is masked somewhere, and
no other, provided that no two valid entries of the settings can have decorations for one key. No
other editor has a layer. -/
theorem layers_update_perm {trace : List Application} (hreached : s.Reached trace)
    (hname : s.editor? = some name) (halive : s.desk.isAlive name = true)
    (henabled : (s.settings.get "enabled").isTruthy = true)
    (hdocument : s.desk.document? name = some document)
    (hkeys : ((looksOf s.rules).map (·.1)).Nodup) (hok : update s = .ok () s') :
    ∃ e drawings, s'.desk.editor? name = some e ∧
      (selected document s.rules).mapM
        (·.drawing (s.sceneOf name document s'.masking.scopes)) = .ok drawings ∧
      e.canvas.handles.Nodup ∧
      (e.canvas.layers.map fun l => (l.look, l.stretches)).Perm
        (drawings.flatten.map fun d => (d.look, d.stretches)) ∧
      ∀ other e', other ≠ name → s'.desk.editor? other = some e' → e'.alive →
        e'.canvas.layers = [] := by
  have hkept := hreached.kept
  obtain ⟨b, m, hb, rfl, hattributed, hsnapshot, hleads⟩ := hkept.snapshot hname halive
  have htidy := hkept.update
  rw [Step.after_of_ok hok] at htidy
  rw [update_of_enabled hname halive henabled, Step.bind_of_ok hsnapshot, hdocument] at hok
  -- from here on the document is masked, with the board as the session has left it so far
  have hasked : Desk.document? m.decorations.desk b.host = some document :=
    hleads.redrawn.document?_eq.trans hdocument
  obtain ⟨b', drawings, hb', hdrawings, hbears, hnodup, hlooks, hfollows⟩ :=
    maskDocument_ok (s := { s with masking := m }) hleads.shows hkeys hasked hok
  obtain ⟨e, he, _, _, hlayers⟩ := hb'.holds.canvas
  rw [hfollows.host] at he
  refine ⟨e, drawings, he, ?_, ?_, ?_, fun other e' hother he' halive' => ?_⟩
  · have hsettings : ({ s with masking := m } : Session).settings = s.settings := rfl
    have hscene : sceneOf { s with masking := m } b.host document s'.masking.scopes =
        s.sceneOf b.host document s'.masking.scopes :=
      sceneOf_eq hsettings hname hleads.shows.host hleads.redrawn document _
    rw [hscene] at hdrawings
    exact hdrawings
  · rw [Canvas.handles, hlayers, List.map_map]
    exact hb'.sound.handles
  · rw [hlayers, List.map_map]
    refine hbears.perm hb'.sound hnodup fun l hl d hd hkey => ?_
    -- the layer may be an old one, but all looks of its key are the same
    have hlook : (l.1, l.2.look) ∈ looksOf s.rules := by
      rcases hfollows.origin l hl with ⟨l₀, hl₀, hsame⟩ | hlook
      · rw [← hsame]
        exact (hattributed _ hl₀).look
      · exact hlook
    exact congrArg Prod.snd (List.inj_on_of_nodup_map hkeys (hlooks d hd) hlook hkey)
  · refine (htidy.canvas other e' he').2.2 halive' ?_
    rw [hb'.host, hfollows.host]
    exact fun heq => hother (Option.some.inj heq).symm

/-- An update shows two letters in their replacements. -/
theorem letters_shown : ∃ s₀ s' e drawings,
    start (always letterEntries) (fun _ => none) Desk.twoLetters = .ok s₀ ∧
      update (s₀.run opening) = .ok () s' ∧ s'.desk.editor? "e" = some e ∧
      (selected { text := "a b" } (s₀.run opening).rules).mapM
        (·.drawing ((s₀.run opening).sceneOf "e" { text := "a b" } s'.masking.scopes))
        = .ok drawings ∧
      e.canvas.handles.Nodup ∧
      (e.canvas.layers.map fun l => (l.look, l.stretches)).Perm
        (drawings.flatten.map fun d => (d.look, d.stretches)) := by
  obtain ⟨s₀, hstart, hready⟩ := exists_started (always letterEntries)
    (fun s₀ =>
      let s := s₀.run opening
      decide (s.editor? = some "e" ∧ s.desk.isAlive "e" = true ∧
        (s.settings.get "enabled").isTruthy = true ∧
        s.desk.document? "e" = some { text := "a b" } ∧
        ((looksOf s.rules).map Prod.fst).Nodup ∧ Step.outcome update s = .ok ()))
    (by decide +kernel)
  obtain ⟨hname, halive, henabled, hdocument, hkeys, hok⟩ := of_decide_eq_true hready
  obtain ⟨e, drawings, he, hdrawings, hhandles, hperm, _⟩ := layers_update_perm
    (reached_of_started hstart opening) hname halive henabled hdocument hkeys
    (Step.eq_of_outcome hok)
  exact ⟨s₀, _, e, drawings, hstart, Step.eq_of_outcome hok, he, hdrawings, hhandles, hperm⟩

end Session

end Conceal
