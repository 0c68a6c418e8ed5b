import Conceal.Proofs.Decoration.Lifetime
import Conceal.Proofs.Decoration.Sending
import Conceal.Proofs.Session.Host

/-!
Editors that are gone. A session draws nothing on an editor that is gone and asks it for nothing,
with two exceptions: other settings remove the decorations that the session still knows there, and
turning to an editor asks it for its document without a look whether it is there. Main statement:
`contacts_run_eq_iff`.
-/

namespace Conceal

/-! ## Desks -/

namespace Desk

/-- The editor of a name is there no more. -/
def Gone (d : Desk) (name : String) : Prop := (d.editor? name).map Editor.alive = some false

instance (d : Desk) (name : String) : Decidable (d.Gone name) :=
  inferInstanceAs (Decidable ((d.editor? name).map Editor.alive = some false))

/-- An editor that is gone stays so and is not contacted any more. -/
def Spares (name : String) (d d' : Desk) : Prop :=
  d.Gone name → d'.Gone name ∧ d'.contacts name = d.contacts name

variable {name : String} {d d' d'' : Desk}

theorem Spares.refl (name : String) (d : Desk) : Spares name d d := fun h => ⟨h, rfl⟩

/-- What spares an editor twice spares it. -/
theorem Spares.trans (h : Spares name d d') (h' : Spares name d' d'') : Spares name d d'' := by
  intro hgone
  obtain ⟨hgone', heq⟩ := h hgone
  obtain ⟨hgone'', heq'⟩ := h' hgone'
  exact ⟨hgone'', heq'.trans heq⟩

theorem contactCount_congr (h : d'.contacts name = d.contacts name) :
    d'.contactCount name = d.contactCount name := by
  unfold contactCount
  rw [h]

/-- An editor that is gone is not alive. -/
theorem Gone.isAlive_eq (h : d.Gone name) : d.isAlive name = false := by
  have hany : ((d.editor? name).map Editor.alive).any id = false := by rw [h]; rfl
  rwa [Option.any_map] at hany

/-- An editor that is gone is still known by its name. -/
theorem Gone.editor? (h : d.Gone name) : ∃ e, d.editor? name = some e := by
  obtain ⟨e, he, -⟩ := Option.map_eq_some_iff.mp h
  exact ⟨e, he⟩

/-- Contact with an editor brings nobody back. -/
theorem Meets.gone {host : Option String} (h : Meets host d d') (hgone : d.Gone name) :
    d'.Gone name := by
  have halive := congrArg (Option.map Face.alive) (h.face name)
  rw [Option.map_map, Option.map_map] at halive
  exact halive.trans hgone

/-- Contact with one editor spares the others. -/
theorem Meets.spares {host : Option String} (h : Meets host d d') (hne : host ≠ some name) :
    Spares name d d' := fun hgone => ⟨h.gone hgone, h.contacts name hne⟩

/-- A change of an editor that does not bring it back. -/
theorem spares_change (d : Desk) (n : String) {f : Editor → Editor}
    (halive : ∀ e, (f e).alive → e.alive) : Spares name d (d.change n f) := by
  intro hgone
  refine ⟨?_, rfl⟩
  obtain ⟨e, he, hdead⟩ := Option.map_eq_some_iff.mp hgone
  rw [Gone, editor?_change, he]
  split
  · have hstill : (f e).alive = false := by
      rw [← Bool.not_eq_true]
      intro hback
      rw [halive e hback] at hdead
      cases hdead
    exact congrArg some hstill
  · exact congrArg some hdead

end Desk

/-! ## Removing all decorations -/

namespace Decorations

variable {d : Decorations} {name : String}

/-- A key that is forgotten has no handle, and the others have theirs. -/
theorem handle?_without (d : Decorations) (key k : String) :
    (d.without key).handle? k = if k = key then none else d.handle? k := by
  split
  next hk =>
    have hlookup : (d.handles.filter (·.1 != key)).lookup k = none := by
      rw [List.lookup_eq_none_iff]
      intro s hs
      exact bne_iff_ne.mpr fun heq => by simp [← heq, hk] at hs
    rw [handle?, without, hlookup]
    rfl
  next hk => rw [handle?, without, lookup_filter_ne _ hk, handle?]

/-- A key without a handle goes without a call. -/
theorem evict_of_none {key : String} (h : d.handle? key = none) :
    evict key d = .ok () (d.without key) := by
  unfold evict without
  rw [Step.bind_of_ok (Step.get_apply d), Step.bind_of_ok (Step.set_apply d _), h]
  cases d.host <;> rfl

/-- A decoration that is removed costs a call at least. -/
theorem contactCount_evict {e : Editor} {key : String} {handle : Nat} (hname : d.host = some name)
    (he : d.desk.editor? name = some e) (hhandle : d.handle? key = some handle) :
    d.desk.contactCount name < (Step.after (evict key) d).desk.contactCount name := by
  have hevict : Step.after (evict key) d = Step.after (do
      onDesk (Desk.send name (.set handle []))
      onDesk (Desk.send name (.dispose handle))) (d.without key) := by
    unfold evict
    rw [Step.after_bind_of_ok (Step.get_apply d), Step.after_bind_of_ok (Step.set_apply d _)]
    split
    next hname' hhandle' =>
      rw [hname] at hname'
      rw [hhandle] at hhandle'
      cases hname'
      cases hhandle'
      rfl
    next hnone => exact (hnone _ _ hname hhandle).elim
  have hset : Desk.contactCount
      (Step.after (onDesk (Desk.send name (.set handle []))) (d.without key)).desk name =
        d.desk.contactCount name + 1 := by
    rw [onDesk, Step.after_on]
    exact (Desk.contacted_send he (.set handle [])).contactCount_eq
  have hworks := works_onDesk (d := d.without key) hname (Desk.meets_send name (.set handle []))
  -- the second call only adds to the first one, which counts even if it is refused
  have hdispose := Step.rel_after_bind (R := Works)
    (f := fun _ => onDesk (Desk.send name (.dispose handle))) fun _ d' hsend => by
      rw [Step.after_of_ok hsend] at hworks
      exact works_onDesk (hworks.host.trans hname) (Desk.meets_send name (.dispose handle))
  have hgrows := hdispose.desk.grows name
  rw [hevict]
  omega

/-- Evicting a key that has a handle contacts the host, be it gone or not. -/
theorem contactCount_evictEach {e : Editor} {keys : List String} {key : String} {handle : Nat}
    (hname : d.host = some name) (he : d.desk.editor? name = some e) (hkey : key ∈ keys)
    (hhandle : d.handle? key = some handle) :
    d.desk.contactCount name < (Step.after (evictEach keys) d).desk.contactCount name := by
  induction keys generalizing d with
  | nil => cases hkey
  | cons k rest ih =>
    cases hk : d.handle? k with
    | some handle' =>
      have hevict := contactCount_evict hname he hk
      have hgrows := (Step.rel_after_bind (x := evict k) (s := d)
        fun _ d' _ => works_evictEach rest d').desk.grows name
      exact Nat.lt_of_lt_of_le hevict hgrows
    | none =>
      -- a key that goes without a call is not the one with the handle
      have hne : key ≠ k := by
        rintro rfl
        rw [hk] at hhandle
        cases hhandle
      have hrest := ih (d := d.without k) hname he (List.mem_of_ne_of_mem hne hkey)
        (by rw [handle?_without, if_neg hne]; exact hhandle)
      have hafter :
          Step.after (evictEach (k :: rest)) d = Step.after (evictEach rest) (d.without k) :=
        Step.after_bind_of_ok (evict_of_none hk)
      rw [hafter]
      exact hrest

/-- Removing the decorations of an editor calls it, if there is one to remove. -/
theorem contactCount_clear {e : Editor} {key : String} {handle : Nat} (hname : d.host = some name)
    (he : d.desk.editor? name = some e) (hhandle : d.handle? key = some handle) :
    d.desk.contactCount name < (Step.after clear d).desk.contactCount name := by
  unfold clear
  rw [Step.after_bind_of_ok (Step.get_apply d)]
  exact contactCount_evictEach hname he (mem_keys_of_handle? hhandle) hhandle

/-- Without handles there is nobody to contact. -/
theorem desk_evictEach_of_none (h : ∀ key, d.handle? key = none) (keys : List String) :
    (Step.after (evictEach keys) d).desk = d.desk := by
  induction keys generalizing d with
  | nil => rfl
  | cons key rest ih =>
    have hnone (k : String) : (d.without key).handle? k = none := by
      rw [handle?_without, h k, ite_self]
    have hafter : Step.after (evictEach (key :: rest)) d =
        Step.after (evictEach rest) (d.without key) :=
      Step.after_bind_of_ok (evict_of_none (h key))
    rw [hafter]
    exact ih hnone

/-- Removing all decorations of other editors, or of none, spares an editor. -/
theorem spares_clear (h : d.host = some name → ∀ key, d.handle? key = none) :
    d.desk.Spares name (Step.after clear d).desk := by
  by_cases hname : d.host = some name
  · have hdesk : (Step.after clear d).desk = d.desk := by
      unfold clear
      rw [Step.after_bind_of_ok (Step.get_apply d)]
      exact desk_evictEach_of_none (h hname) d.keys
    rw [hdesk]
    exact Desk.Spares.refl name d.desk
  · exact (works_clear d).desk.spares hname

end Decorations

/-! ## Sessions -/

namespace Session

/-- An editor that is gone stays so and is not contacted any more. -/
def Spares (name : String) (s s' : Session) : Prop := s.desk.Spares name s'.desk

variable {s s' : Session} {name : String}

instance : Std.Refl (Spares name) := ⟨fun s => Desk.Spares.refl name s.desk⟩

instance : Trans (Spares name) (Spares name) (Spares name) := ⟨Desk.Spares.trans⟩

theorem Spares.of_eq (h : s'.desk = s.desk) : Spares name s s' := fun hgone =>
  ⟨h ▸ hgone, by rw [h]⟩

/-- No editor that is gone is the host. -/
theorem Minds.spares (h : Minds s s') : Spares name s s' := by
  intro hgone
  refine h.desk.spares (fun hhost => ?_) hgone
  have halive := (host?_eq_some.mp hhost).2
  rw [hgone.isAlive_eq] at halive
  cases halive

theorem hearing_spares (name : String) : Hearing (Spares name) where
  request s := (minds_requestGrammar s).spares
  schedule _ := Spares.of_eq rfl
  textChanged _ := Spares.of_eq rfl

theorem spares_changeEditor (n : String) {f : Editor → Editor}
    (halive : ∀ e, (f e).alive → e.alive) : Spares name s (s.changeEditor n f) :=
  Desk.spares_change s.desk n halive

theorem spares_connect (n : String) : Spares name s (s.connect n) := by
  have hfold := canvas_foldl (f := Editor.connect) (fun e signal => by
    unfold Editor.connect; split <;> exact ⟨rfl, rfl⟩) Signal.all
  exact spares_changeEditor n fun e => (hfold e).2 ▸ id

theorem spares_disconnect (n : String) : Spares name s (s.disconnect n) := by
  have hfold := canvas_foldl (f := Editor.disconnect) (fun e signal => by
    unfold Editor.disconnect; split <;> exact ⟨rfl, rfl⟩) Signal.all
  exact spares_changeEditor n fun e => (hfold e).2 ▸ id

/-- An editor is let go; if it is gone, its decorations are forgotten. -/
theorem spares_letGo (s : Session) (name : String) : Spares name s s.letGo ∧
    (s.desk.Gone name → s.editor? = some name → s.letGo.masking.decorations.handles = []) := by
  cases hold : s.editor? with
  | none =>
    rw [letGo, hold]
    exact ⟨Std.Refl.refl s, fun _ hname => by cases hname⟩
  | some old =>
    rw [letGo, hold, Option.elim_some, release]
    split
    next halive =>
      refine ⟨spares_disconnect old, fun hgone hname => ?_⟩
      rw [Option.some.inj hname, hgone.isAlive_eq] at halive
      cases halive
    · exact ⟨Spares.of_eq rfl, fun _ _ => rfl⟩

/-- When an editor was let go, what it still has is removed without a call to one that is gone. -/
theorem spares_clear_letGo (s : Session) (name : String) :
    s.desk.Spares name (Step.after Decorations.clear s.letGo.masking.decorations).desk := by
  intro hgone
  obtain ⟨hspares, hforgets⟩ := spares_letGo s name
  refine (hspares.trans (Decorations.spares_clear fun hname key => ?_)) hgone
  have hnil := hforgets hgone ((redecorates_letGo s).editor.symm.trans hname)
  rw [Decorations.handle?, hnil]
  rfl

/-- Taking up a document contacts no editor that is gone. -/
theorem spares_settleIn (editor : Option String) (document : Option Document) :
    Step.Obeys (Spares name) (settleIn editor document) := by
  refine Step.Obeys.bind (Step.obeys_modify fun _ => Spares.of_eq rfl) fun _ => ?_
  refine Step.Obeys.bind (Step.obeys_forSome fun n => ?_) fun _ =>
    (hearing_spares name).languageMayChange
  exact Step.obeys_modify fun _ => spares_connect n

/-- Taking up another editor. -/
theorem spares_takeUp {editor : Option String} (hne : editor ≠ some name) :
    Step.Obeys (Spares name) (takeUp editor) := by
  cases editor with
  | none => exact spares_settleIn none none
  | some n =>
    refine Step.Obeys.bind (fun s => ?_) (spares_settleIn (some n))
    rw [after_onDesk]
    exact (Desk.meets_snapshot n s.desk).spares hne

/-- An editor that is taken up is asked for its document, even if it is gone. -/
theorem contactCount_takeUp (hgone : s.desk.Gone name) :
    (Step.after (takeUp (some name)) s).desk.Gone name ∧
      s.desk.contactCount name < (Step.after (takeUp (some name)) s).desk.contactCount name := by
  obtain ⟨e, he⟩ := hgone.editor?
  let asked := Step.after (onDesk (Desk.snapshot name)) s
  have hdesk : asked.desk = Step.after (Desk.snapshot name) s.desk :=
    congrArg desk (after_onDesk (Desk.snapshot name) s)
  have hcontacted := Desk.contacted_snapshot he
  have hcount : asked.desk.contactCount name = s.desk.contactCount name + 1 :=
    hdesk ▸ hcontacted.contactCount_eq
  have hgone' : asked.desk.Gone name := hdesk ▸ hcontacted.meets.gone hgone
  have hrest : Spares name asked (Step.after (takeUp (some name)) s) :=
    Step.rel_after_bind fun document s' _ => spares_settleIn (some name) document s'
  obtain ⟨hgone'', hcontacts⟩ := hrest hgone'
  have hsame := Desk.contactCount_congr hcontacts
  exact ⟨hgone'', by omega⟩

/-! ## Events -/

/-- The events that reach an editor although it is gone: other settings while it is the session's
editor and has a decoration that the session knows, and a turn to it that does not fail before. -/
inductive Disturbs (s : Session) (name : String) : Event → Prop
  | settings {settings : Json} {members : Json.Members}
      (hread : Settings.normalize settings = .ok members) (hname : s.editor? = some name)
      {key : String} {handle : Nat}
      (hhandle : s.masking.decorations.handle? key = some handle) :
      Disturbs s name (.settingsChanged settings)
  | turn (hother : s.editor? ≠ some name)
      (hturned : (Step.after (handle (.turnTo (some name))) s).editor? = some name) :
      Disturbs s name (.turnTo (some name))

/-- What an event does to an editor that is gone: it is contacted exactly if it is disturbed. -/
def Respects (s : Session) (name : String) (e : Event) (s' : Session) : Prop :=
  s'.desk.Gone name ∧
    (s.Disturbs name e ∧ s.desk.contactCount name < s'.desk.contactCount name ∨
      ¬ s.Disturbs name e ∧ s'.desk.contacts name = s.desk.contacts name)

/-- What spares an editor respects it where nothing disturbs it. -/
theorem Spares.respects (h : Spares name s s') (hgone : s.desk.Gone name) {e : Event}
    (he : ¬ s.Disturbs name e) : s.Respects name e s' := by
  obtain ⟨hgone', heq⟩ := h hgone
  exact ⟨hgone', Or.inr ⟨he, heq⟩⟩

/-- Other settings remove the decorations, if they can be read, and touch the desk no more. -/
theorem desk_setSettings {settings : Json} {members : Json.Members}
    (hread : Settings.normalize settings = .ok members) (s : Session) :
    (Step.after (setSettings settings) s).desk =
      (Step.after Decorations.clear s.masking.decorations).desk := by
  have hsame : Std.Refl fun s s' : Session => s'.desk = s.desk := ⟨fun _ => rfl⟩
  have hclear (s : Session) :
      (Step.after (onMasking (Masking.onDecorations Decorations.clear)) s).desk =
        (Step.after Decorations.clear s.masking.decorations).desk := by
    rw [onMasking, Step.after_on, Masking.onDecorations, Step.after_on]
    rfl
  have hok : (Step.ofExcept (.ok members) : Step Session Json.Members) s = .ok members s := rfl
  rw [setSettings, hread, Step.after_bind_of_ok hok, Step.after_bind_of_ok (Step.modify_apply s _)]
  exact (Step.rel_after_bind (R := fun s s' : Session => s'.desk = s.desk)
    fun _ _ _ => rfl).trans (hclear _)

/-- Other settings disturb an editor that is gone only by clearing its decorations. -/
theorem respects_setSettings (hgone : s.desk.Gone name) (settings : Json) :
    s.Respects name (.settingsChanged settings) (Step.after (setSettings settings) s) := by
  cases hread : Settings.normalize settings with
  | error fault =>
    have hafter : Step.after (setSettings settings) s = s := by rw [setSettings, hread]; rfl
    rw [hafter]
    refine Spares.respects (Std.Refl.refl s) hgone fun hdisturbs => ?_
    cases hdisturbs with
    | settings hok => rw [hread] at hok; cases hok
  | ok members =>
    have hdesk := desk_setSettings hread s
    -- new settings clear the decorations, which reaches the editor only where there are some
    by_cases hknown : s.editor? = some name ∧
        ∃ key handle, s.masking.decorations.handle? key = some handle
    · obtain ⟨hname, key, handle, hhandle⟩ := hknown
      obtain ⟨e, he⟩ := hgone.editor?
      have hmeets := (Decorations.works_clear s.masking.decorations).desk
      have hgrows := Decorations.contactCount_clear hname he hhandle
      rw [← hdesk] at hmeets hgrows
      exact ⟨hmeets.gone hgone, Or.inl ⟨.settings hread hname hhandle, hgrows⟩⟩
    · have hspares :
          s.desk.Spares name (Step.after Decorations.clear s.masking.decorations).desk := by
        refine Decorations.spares_clear fun hname key => ?_
        cases hhandle : s.masking.decorations.handle? key with
        | none => rfl
        | some handle => exact absurd ⟨hname, key, handle, hhandle⟩ hknown
      rw [← hdesk] at hspares
      refine Spares.respects hspares hgone fun hdisturbs => ?_
      cases hdisturbs with
      | settings _ hname hhandle => exact hknown ⟨hname, _, _, hhandle⟩

/-- A turn disturbs an editor that is gone only by asking it for its document. -/
theorem respects_setEditor (hgone : s.desk.Gone name) (editor : Option String) :
    s.Respects name (.turnTo editor) (Step.after (setEditor editor) s) := by
  by_cases hne : editor = s.editor?
  · rw [setEditor_of_eq hne]
    refine Spares.respects (Std.Refl.refl s) hgone fun hdisturbs => ?_
    cases hdisturbs with
    | turn hother => exact hother hne.symm
  · have hcleared := spares_clear_letGo s name
    rcases after_setEditor hne with ⟨d, hclear, hafter⟩ | ⟨fault, d, hclear, hafter, hredecorates⟩
    · rw [Step.after_of_ok hclear] at hcleared
      obtain ⟨hgone₁, hcontacts⟩ := hcleared hgone
      let turned : Session := { s.letGo with masking.decorations := { d with host := editor } }
      rw [hafter]
      by_cases heditor : editor = some name
      · subst heditor
        obtain ⟨hgone₂, hgrows⟩ := contactCount_takeUp (s := turned) hgone₁
        refine ⟨hgone₂, Or.inl ⟨.turn (Ne.symm hne) ?_, ?_⟩⟩
        · rw [handle, hafter]
          exact (quiet_takeUp (some name) turned).host
        · have hcount : turned.desk.contactCount name = s.desk.contactCount name :=
            Desk.contactCount_congr hcontacts
          rwa [← hcount]
      · have hturned : Spares name s turned := fun _ => ⟨hgone₁, hcontacts⟩
        refine Spares.respects (Trans.trans hturned (spares_takeUp heditor turned)) hgone ?_
        intro hdisturbs
        cases hdisturbs with
        | turn => exact heditor rfl
    · rw [Step.after_of_error hclear] at hcleared
      have hspares : Spares name s { s.letGo with masking.decorations := d } := hcleared
      rw [← hafter] at hspares
      refine hspares.respects hgone fun hdisturbs => ?_
      cases hdisturbs with
      | turn hother hturned =>
        -- the old editor is still the session's editor
        exact hother (hredecorates.editor.symm.trans hturned)

theorem spares_shutDown (name : String) : Step.Obeys (Spares name) shutDown := by
  intro s
  rw [after_shutDown, onMasking, Step.after_on, Masking.onDecorations, Step.after_on]
  exact spares_clear_letGo s.atRest name

/-- Whatever happens, an editor that is gone stays so and is contacted exactly if it is disturbed. -/
theorem respects_handle (hgone : s.desk.Gone name) (e : Event) :
    s.Respects name e (Step.after (handle e) s) := by
  have hspares {e : Event} (he : e.sparesDecorations = true) :
      s.Respects name e (Step.after (handle e) s) := by
    have hhandle : Spares name s (Step.after (handle e) s) :=
      (hearing_spares name).handle (fun _ n _ _ halive => spares_changeEditor n halive)
        (fun _ _ _ => Spares.of_eq rfl) (fun s => (minds_poll s).spares) he s
    refine hhandle.respects hgone fun hdisturbs => ?_
    cases hdisturbs <;> cases he
  cases e with
  | turnTo editor => exact respects_setEditor hgone editor
  | settingsChanged settings => exact respects_setSettings hgone settings
  | pauseOver =>
    exact Spares.respects (minds_fire s).spares hgone fun hdisturbs => by cases hdisturbs
  | closed =>
    exact Spares.respects (spares_shutDown name s) hgone fun hdisturbs => by cases hdisturbs
  | _ => exact hspares rfl

/-! ## Runs -/

/-- Whatever happens, an editor that is gone stays so, and contacts are not taken back. -/
theorem contactCount_run (hgone : s.desk.Gone name) (events : List Event) :
    (s.run events).desk.Gone name ∧
      s.desk.contactCount name ≤ (s.run events).desk.contactCount name := by
  induction events generalizing s with
  | nil => exact ⟨hgone, Nat.le_refl _⟩
  | cons e rest ih =>
    obtain ⟨hgone', hrespects⟩ := respects_handle hgone e
    obtain ⟨hgone'', hle⟩ := ih hgone'
    refine ⟨hgone'', Nat.le_trans ?_ hle⟩
    rcases hrespects with ⟨-, hlt⟩ | ⟨-, heq⟩
    · exact Nat.le_of_lt hlt
    · exact Nat.le_of_eq (Desk.contactCount_congr heq).symm

/-- The events that disturb an editor in a run. -/
def Disturbed (s : Session) (name : String) (events : List Event) : Prop :=
  ∃ before e after, events = before ++ e :: after ∧ (s.run before).Disturbs name e

/-- A run disturbs an editor with its first event or afterwards. -/
theorem disturbed_cons (s : Session) (name : String) (e : Event) (rest : List Event) :
    s.Disturbed name (e :: rest) ↔
      s.Disturbs name e ∨ (Step.after (handle e) s).Disturbed name rest := by
  constructor
  · rintro ⟨before, e', after, heq, hdisturbs⟩
    cases before with
    | nil =>
      cases heq
      exact Or.inl hdisturbs
    | cons e₀ before =>
      cases heq
      exact Or.inr ⟨before, e', after, rfl, hdisturbs⟩
  · rintro (hdisturbs | ⟨before, e', after, rfl, hdisturbs⟩)
    · exact ⟨[], e, rest, rfl, hdisturbs⟩
    · exact ⟨e :: before, e', after, rfl, hdisturbs⟩

/-- Whatever happens after an editor has gone: no call is made to it, and it is asked for nothing,
as long as, and only as long as, no other settings come while the session still knows a decoration
on it, and the session does not turn to it. -/
theorem contacts_run_eq_iff (hgone : s.desk.Gone name) (events : List Event) :
    (s.run events).desk.contacts name = s.desk.contacts name ↔ ¬ s.Disturbed name events := by
  induction events generalizing s with
  | nil =>
    refine iff_of_true rfl ?_
    rintro ⟨before, e, after, heq, -⟩
    cases before <;> cases heq
  | cons e rest ih =>
    obtain ⟨hgone', hrespects⟩ := respects_handle hgone e
    rw [disturbed_cons, run_cons]
    rcases hrespects with ⟨hdisturbs, hlt⟩ | ⟨hspared, heq⟩
    · -- once contacted, always contacted
      refine iff_of_false (fun hcontacts => ?_) fun hnone => hnone (Or.inl hdisturbs)
      have hle := (contactCount_run hgone' rest).2
      have hcount : ((Step.after (handle e) s).run rest).desk.contactCount name =
          s.desk.contactCount name := Desk.contactCount_congr hcontacts
      omega
    · rw [← heq, ih hgone', or_iff_right hspared]

/-- An editor with decorations is lost, and the session lets it rest. -/
theorem letters_spared : ∃ s₀,
    start (always letterEntries) (fun _ => none) Desk.twoLetters = .ok s₀ ∧
    let s := s₀.run (opening ++ [.perished "e"])
    s.desk.Gone "e" ∧ s.editor? = some "e" ∧ s.desk.contacts "e" ≠ ([], []) ∧
      (s.run [.told .saved, .pauseOver, .polled, .turnTo none, .closed]).desk.contacts "e" =
        s.desk.contacts "e" := by
  obtain ⟨s₀, hstart, hready⟩ := exists_started (always letterEntries)
    (fun s₀ =>
      let s := s₀.run (opening ++ [.perished "e"])
      decide (s.desk.Gone "e" ∧ s.editor? = some "e" ∧ s.desk.contacts "e" ≠ ([], [])))
    (by decide +kernel)
  obtain ⟨hgone, hname, hcontacts⟩ := of_decide_eq_true hready
  refine ⟨s₀, hstart, hgone, hname, hcontacts, (contacts_run_eq_iff hgone _).mpr ?_⟩
  rintro ⟨before, e, after, heq, hdisturbs⟩
  have hmem : e ∈ before ++ e :: after := List.mem_append_right _ List.mem_cons_self
  rw [← heq] at hmem
  cases hdisturbs <;> simp at hmem

/-- Other settings reach an editor that is gone: its decorations are emptied and disposed of. -/
theorem settings_reach_gone_editor : ∃ s₀,
    start (always letterEntries) (fun _ => none) Desk.twoLetters = .ok s₀ ∧
    let s := s₀.run (opening ++ [.perished "e"])
    s.desk.Gone "e" ∧
      (s.run [.settingsChanged (.obj [])]).desk.contacts "e" ≠ s.desk.contacts "e" := by
  obtain ⟨s₀, hstart, hready⟩ := exists_started (always letterEntries)
    (fun s₀ =>
      let s := s₀.run (opening ++ [.perished "e"])
      decide (s.desk.Gone "e" ∧
        (s.run [.settingsChanged (.obj [])]).desk.contacts "e" ≠ s.desk.contacts "e"))
    (by decide +kernel)
  obtain ⟨hgone, hreached⟩ := of_decide_eq_true hready
  exact ⟨s₀, hstart, hgone, hreached⟩

end Session

end Conceal
