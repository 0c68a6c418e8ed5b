import Conceal.Proofs.Session.Pauses

/-!
The connections of a session to editors that are there and grant every call. Whatever happens before
its end, each signal that its editor can send is connected once, all other editors have no
connection and bear no decoration, and turning to another editor moves everything there. Main
statement: `wired_run`.
-/

namespace Conceal

namespace Editor

/-- What a session needs of an editor to hear from it. -/
structure Wiring where
  signals : List Signal
  connected : List Signal
  alive : Bool

/-- What a session needs of an editor to hear from it. -/
def wiring (e : Editor) : Wiring := ⟨e.signals, e.connected, e.alive⟩

/-- The signals that an editor can send, in the order in which a session connects to them. -/
def present (e : Editor) : List Signal := Signal.all.filter (e.signals.contains ·)

theorem wiring_receive (e : Editor) (call : Call) : (e.receive call).1.wiring = e.wiring := by
  unfold receive
  split
  · rfl
  · split <;> rfl

theorem wiring_snapshot (e : Editor) : e.snapshot.2.wiring = e.wiring := by
  unfold snapshot
  split <;> rfl

theorem wiring_selections (e : Editor) : e.selections.2.wiring = e.wiring := by
  unfold selections
  split <;> rfl

/-- Of some signals those are connected that the editor can send. -/
private theorem foldl_connect (signals : List Signal) (e : Editor) : signals.foldl connect e =
    { e with connected := e.connected ++ signals.filter (e.signals.contains ·) } := by
  induction signals generalizing e with
  | nil => simp
  | cons signal rest ih =>
    rw [List.foldl_cons, ih, connect]
    by_cases hsignal : e.signals.contains signal = true
    · rw [if_pos hsignal, List.filter_cons_of_pos hsignal, List.append_assoc]
      rfl
    · rw [if_neg hsignal, List.filter_cons_of_neg hsignal]

/-- Each signal that is connected once is not connected any more. -/
private theorem foldl_disconnect {signals : List Signal} {e : Editor}
    (h : e.connected = signals.filter (e.signals.contains ·)) :
    signals.foldl disconnect e = { e with connected := [] } := by
  induction signals generalizing e with
  | nil =>
    rw [List.filter_nil] at h
    rw [List.foldl_nil, ← h]
  | cons signal rest ih =>
    rw [List.foldl_cons, disconnect]
    by_cases hsignal : e.signals.contains signal = true
    · rw [List.filter_cons_of_pos hsignal] at h
      rw [if_pos hsignal, h, List.erase_cons_head]
      exact ih (e := { e with connected := _ }) rfl
    · rw [List.filter_cons_of_neg hsignal] at h
      rw [if_neg hsignal]
      exact ih h

end Editor

/-! ## What leaves the connections alone -/

namespace Desk

/-- All editors have the same wiring. -/
def Wires (d d' : Desk) : Prop :=
  ∀ n, (d'.editor? n).map Editor.wiring = (d.editor? n).map Editor.wiring

variable {d d' : Desk} {name : String}

theorem Wires.refl (d : Desk) : Wires d d := fun _ => rfl

theorem Wires.trans {d'' : Desk} (h : Wires d d') (h' : Wires d' d'') : Wires d d'' := fun n =>
  (h' n).trans (h n)

/-- A change of an editor that leaves its wiring leaves the wiring of all. -/
theorem wires_change {f : Editor → Editor} (hf : ∀ e, (f e).wiring = e.wiring) (name : String)
    (d : Desk) : Wires d (d.change name f) := by
  intro n
  rw [editor?_change]
  split
  · rw [Option.map_map]
    exact congrArg (Option.map · _) (funext hf)
  · rfl

/-- Calls do not touch the wiring. -/
theorem wires_send (name : String) (call : Call) : Step.Obeys Wires (send name call) := by
  intro d
  cases he : d.editor? name with
  | none =>
    rw [after_send_of_none he call]
    exact Wires.refl d
  | some e =>
    rw [after_send he]
    exact map_change he (e.wiring_receive call)

/-- Nor do questions for a document. -/
theorem wires_snapshot (name : String) : Step.Obeys Wires (snapshot name) := by
  intro d
  cases he : d.editor? name with
  | none =>
    rw [after_snapshot_of_none he]
    exact Wires.refl d
  | some e =>
    rw [after_snapshot he]
    exact map_change (d := d.note name .document) he e.wiring_snapshot

/-- Nor do questions for selections. -/
theorem wires_selections (name : String) : Step.Obeys Wires (selections name) := by
  intro d
  cases he : d.editor? name with
  | none =>
    rw [after_selections_of_none he]
    exact Wires.refl d
  | some e =>
    rw [after_selections he]
    exact map_change (d := d.note name .selections) he e.wiring_selections

end Desk

namespace Decorations

/-- The later decorations have the same host, and all editors have the same wiring. -/
structure Wires (d d' : Decorations) : Prop where
  host : d'.host = d.host
  desk : d.desk.Wires d'.desk

instance : Std.Refl Wires := ⟨fun d => ⟨rfl, Desk.Wires.refl d.desk⟩⟩

instance : Trans Wires Wires Wires :=
  ⟨fun h h' => ⟨h'.host.trans h.host, h.desk.trans h'.desk⟩⟩

theorem wires_onDesk {α : Type} {act : Step Desk α} (hact : Step.Obeys Desk.Wires act)
    (d : Decorations) : Wires d (Step.after (onDesk act) d) := by
  rw [onDesk, Step.after_on]
  exact ⟨rfl, hact d.desk⟩

/-- So whatever is made of these leaves the wiring, too. -/
theorem framed_wires : Framed Wires where
  host := Wires.host
  send call _ := wires_onDesk (Desk.wires_send _ call) _
  snapshot _ := wires_onDesk (Desk.wires_snapshot _) _
  selections _ := wires_onDesk (Desk.wires_selections _) _
  handles _ _ := ⟨rfl, Desk.Wires.refl _⟩

end Decorations

namespace Session

variable {s s' : Session} {trace : List Application}

/-- The later session has the same editor, and all editors have the same wiring. -/
def Wires (s s' : Session) : Prop := s.masking.decorations.Wires s'.masking.decorations

instance : Std.Refl Wires := ⟨fun s => Std.Refl.refl s.masking.decorations⟩

instance : Trans Wires Wires Wires :=
  ⟨fun h h' => Trans.trans (r := Decorations.Wires) (s := Decorations.Wires) h h'⟩

theorem Wires.of_eq (h : s'.masking.decorations = s.masking.decorations) : Wires s s' := by
  unfold Wires
  rw [h]
  exact Std.Refl.refl _

theorem wires_changeEditor {f : Editor → Editor} (hf : ∀ e, (f e).wiring = e.wiring)
    (s : Session) (name : String) : Wires s (s.changeEditor name f) :=
  ⟨rfl, Desk.wires_change hf name s.desk⟩

theorem wires_onMasking {α : Type} {act : Step Masking α}
    (h : Step.Obeys (Masking.Keeping Decorations.Wires) act) :
    Step.Obeys Wires (onMasking act) := by
  intro s
  rw [onMasking, Step.after_on]
  exact (h s.masking).decorations

theorem wires_snapshot (name : String) : Step.Obeys Wires (onDesk (Desk.snapshot name)) :=
  wires_onMasking fun _ =>
    Masking.keeping_onDecorations (Decorations.wires_onDesk (Desk.wires_snapshot name) _)

theorem wires_requestGrammar : Step.Obeys Wires requestGrammar :=
  obeys_requestGrammar (fun _ => Wires.of_eq rfl) (fun s name _ => wires_snapshot name s)
    (fun _ _ => Wires.of_eq rfl) (fun _ => Wires.of_eq rfl) (fun _ _ => Wires.of_eq rfl)

theorem hearing_wires : Hearing Wires where
  request := wires_requestGrammar
  schedule _ := Wires.of_eq rfl
  textChanged _ := Wires.of_eq rfl

theorem wires_clear :
    Step.Obeys Wires (onMasking (Masking.onDecorations Decorations.clear)) :=
  wires_onMasking fun _ => Masking.keeping_onDecorations (Decorations.framed_wires.clear _)

theorem wires_maskDocument (document : Document) : Step.Obeys Wires (maskDocument document) := by
  have hscopes : Step.Obeys Wires (ensureScopes document) := fun s =>
    Wires.of_eq (ensureScopes_eq document s).2
  refine hscopes.bind fun _ => Step.obeys_get.bind fun s => ?_
  refine Step.Obeys.bind (wires_onMasking ?_) fun _ => Step.obeys_modify fun _ => Wires.of_eq rfl
  exact Decorations.framed_wires.update (Decorations.framed_wires.applyRules _ _ _)

/-- An update leaves the wiring. -/
theorem wires_update : Step.Obeys Wires update := by
  unfold update
  refine Step.obeys_get.bind fun s => ?_
  split
  · exact Step.obeys_pure _
  · split
    · exact wires_clear
    · split
      · exact (wires_snapshot _).bind fun _ => Step.obeys_forSome wires_maskDocument
      · exact (Step.obeys_pure none).bind fun _ => Step.obeys_forSome wires_maskDocument

/-- The end of a pause leaves the wiring. -/
theorem wires_fire : Step.Obeys Wires fire := by
  unfold fire
  refine Step.obeys_get.bind fun s => ?_
  split
  · exact Step.Obeys.bind (Step.obeys_modify fun _ => Wires.of_eq rfl) fun _ => wires_update
  · exact Step.obeys_pure _

/-- Other settings leave the wiring. -/
theorem wires_setSettings (settings : Json) : Step.Obeys Wires (setSettings settings) := by
  unfold setSettings
  refine (Step.obeys_ofExcept _).bind fun members => ?_
  refine Step.Obeys.bind (Step.obeys_modify fun _ => Wires.of_eq rfl) fun _ => ?_
  exact wires_clear.bind fun _ => Step.obeys_modify fun _ => Wires.of_eq rfl

theorem wires_poll (s : Session) : Wires s s.poll :=
  rel_poll (fun _ _ _ _ => Wires.of_eq rfl) (fun _ _ _ => Wires.of_eq rfl) s

/-- Events in which neither the session turns to an editor or ends nor an editor is lost. -/
def Event.sparesWiring : Event → Bool
  | .turnTo _ | .closed | .perished _ => false
  | _ => true

/-- All but a few kinds of events leave the wiring. -/
theorem wires_handle {e : Event} (he : e.sparesWiring = true) : Step.Obeys Wires (handle e) := by
  cases e with
  | turnTo => cases he
  | closed => cases he
  | perished => cases he
  | told signal => exact hearing_wires.receive signal
  | settingsChanged settings => exact wires_setSettings settings
  | pauseOver => exact wires_fire
  | delivered number d => exact Step.obeys_modify fun _ => Wires.of_eq rfl
  | polled => exact Step.obeys_modify wires_poll
  | displayed name document =>
    refine Step.obeys_modify fun s => wires_changeEditor (fun e => ?_) s name
    unfold Editor.display
    split <;> rfl
  | chosen name selections =>
    refine Step.obeys_modify fun s => wires_changeEditor (fun e => ?_) s name
    unfold Editor.choose
    split <;> rfl
  | styled name caretStyle =>
    refine Step.obeys_modify fun s => wires_changeEditor (fun e => ?_) s name
    unfold Editor.restyle
    split <;> rfl
  | sent name signal => exact hearing_wires.hear name signal
  | worked name act =>
    refine (hearing_wires.edit name (fun s area => ?_) _).bind fun _ => Step.obeys_pure _
    exact wires_changeEditor (f := fun e => { e with content := .typed area }) (fun _ => rfl) s name

/-! ## Where a session is connected -/

/-- All editors are there, and the signals of one of them, if it is given, are connected: each that
it can send, once. -/
def WiredTo (editor : Option String) (s : Session) : Prop :=
  ∀ name e, s.desk.editor? name = some e →
    e.alive = true ∧ e.connected = if editor = some name then e.present else []

variable {editor : Option String}

/-- Where the wiring stays the session is wired as before. -/
theorem WiredTo.wires (h : s.WiredTo editor) (hwires : s.desk.Wires s'.desk) :
    s'.WiredTo editor := by
  intro name e' he'
  have hsame := hwires name
  rw [he', Option.map_some, eq_comm, Option.map_eq_some_iff] at hsame
  obtain ⟨e, he, hwiring⟩ := hsame
  obtain ⟨hsignals, hconnected, halive⟩ := Editor.Wiring.mk.inj hwiring
  have hpresent : e'.present = e.present := by rw [Editor.present, Editor.present, hsignals]
  rw [← halive, ← hconnected, hpresent]
  exact h name e he

theorem editor?_changeEditor (s : Session) (name n : String) (f : Editor → Editor) :
    (s.changeEditor name f).desk.editor? n =
      if n = name then (s.desk.editor? n).map f else s.desk.editor? n :=
  Desk.editor?_change s.desk name n f

/-- One editor is connected, and no other was. -/
theorem WiredTo.connect (h : s.WiredTo none) (name : String) :
    (s.connect name).WiredTo (some name) := by
  intro n e' he'
  rw [Session.connect, editor?_changeEditor] at he'
  by_cases hn : n = name
  · rw [if_pos hn, Option.map_eq_some_iff] at he'
    obtain ⟨e, he, rfl⟩ := he'
    obtain ⟨halive, hnone⟩ := h n e he
    have hnone : e.connected = [] := hnone
    rw [Editor.foldl_connect, hn, if_pos rfl, hnone]
    exact ⟨halive, rfl⟩
  · rw [if_neg hn] at he'
    have hne : some name ≠ some n := fun heq => hn (Option.some.inj heq).symm
    rw [if_neg hne]
    exact h n e' he'

/-- The editor that was connected is let go. -/
theorem WiredTo.letGo (h : s.WiredTo s.editor?) : s.letGo.WiredTo none := by
  intro n e' he'
  unfold Session.letGo at he'
  cases hown : s.editor? with
  | none =>
    rw [hown] at he' h
    exact h n e' he'
  | some old =>
    rw [hown] at he' h
    by_cases halive : s.desk.isAlive old = true
    · rw [Option.elim_some, release, if_pos halive, disconnect, editor?_changeEditor] at he'
      -- the editor that is let go loses its connections, and no other had any
      by_cases hn : n = old
      · rw [if_pos hn, Option.map_eq_some_iff] at he'
        obtain ⟨e, he, rfl⟩ := he'
        obtain ⟨hthere, hconnected⟩ := h n e he
        rw [hn, if_pos rfl] at hconnected
        rw [Editor.foldl_disconnect hconnected]
        exact ⟨hthere, rfl⟩
      · rw [if_neg hn] at he'
        have hne : some old ≠ some n := fun heq => hn (Option.some.inj heq).symm
        have hother := h n e' he'
        rwa [if_neg hne] at hother
    · -- an editor that is not on the desk has no connections to take back
      have hdesk : (s.release old).desk = s.desk := by rw [release, if_neg halive]; rfl
      rw [Option.elim_some, hdesk] at he'
      obtain ⟨hthere, hconnected⟩ := h n e' he'
      have hne : some old ≠ some n := by
        rintro heq
        obtain rfl := Option.some.inj heq
        exact halive (by rw [Desk.isAlive, he']; exact hthere)
      rw [if_neg hne] at hconnected
      exact ⟨hthere, hconnected⟩

/-- An editor that becomes the host is connected. -/
theorem WiredTo.takeUp (h : s.WiredTo none) (editor : Option String) :
    (Step.after (takeUp editor) s).WiredTo editor := by
  have hrequest : Step.Obeys Wires languageMayChange := hearing_wires.languageMayChange
  cases editor with
  | none =>
    have hwires : Step.Obeys Wires (Session.takeUp none) :=
      (Step.obeys_pure none).bind fun document =>
        Step.Obeys.bind (Step.obeys_modify fun _ => Wires.of_eq rfl) fun _ =>
          (Step.obeys_pure ()).bind fun _ => hrequest
    exact h.wires (hwires s).desk
  | some name =>
    obtain ⟨document, t, hasked, ht⟩ : ∃ document t,
        onDesk (Desk.snapshot name) s = .ok document t ∧ Wires s t := by
      have hwires := wires_snapshot name s
      exact ⟨_, _, onDesk_snapshot_eq name s, hwires⟩
    unfold Session.takeUp
    rw [Step.after_bind_of_ok hasked]
    unfold settleIn
    rw [Step.after_bind_of_ok (Step.modify_apply t _)]
    have hunwired : WiredTo none { t with
        masking.scopes := t.masking.scopes.setDocument document
        stale := true } := h.wires ht.desk
    exact (hunwired.connect name).wires (hrequest _).desk

/-- Turning to an editor moves the connections there. -/
theorem WiredTo.setEditor (h : s.WiredTo s.editor?) (hkept : s.Kept trace)
    (editor : Option String) : ∃ s', setEditor editor s = .ok () s' ∧ s'.editor? = editor ∧
      s'.WiredTo editor := by
  by_cases hsame : editor = s.editor?
  · subst hsame
    exact ⟨s, s.setEditor_self, rfl, h⟩
  · obtain ⟨t, hrelease, hkept', -⟩ := hkept.releaseOwn
    rw [forSome_release] at hrelease
    obtain ⟨-, rfl⟩ := EStateM.Result.ok.inj hrelease
    -- the canvases grant every call, so the decorations on the old editor can be removed
    obtain ⟨d, hclear, -, -⟩ :=
      Decorations.Tidy.clear hkept' (Board.attributed_of_empty s.letGo.rules trace)
    rcases setEditor_cases hsame with ⟨d', hclear', hset⟩ | ⟨fault, d', hclear', -⟩
    · obtain ⟨s', htakeUp, -⟩ :=
        takeUp_ok editor { s.letGo with masking.decorations := { d' with host := editor } }
      have hcleared := Decorations.framed_wires.clear s.letGo.masking.decorations
      rw [Step.after_of_ok hclear'] at hcleared
      have hwired : WiredTo none
          { s.letGo with masking.decorations := { d' with host := editor } } :=
        h.letGo.wires hcleared.desk
      have hwired := hwired.takeUp editor
      have hcalm :=
        quiet_takeUp editor { s.letGo with masking.decorations := { d' with host := editor } }
      rw [Step.after_of_ok htakeUp] at hwired hcalm
      exact ⟨s', hset.trans htakeUp, hcalm.host, hwired⟩
    · rw [hclear] at hclear'
      cases hclear'

/-! ## Runs -/

/-- Events before the end of a session in which no editor is lost. -/
def Event.isOrdinary : Event → Bool
  | .closed | .perished _ => false
  | _ => true

/-- After an ordinary event the session is wired to its editor. -/
theorem WiredTo.handle (h : s.WiredTo s.editor?) (hkept : s.Kept trace) {e : Event}
    (he : e.isOrdinary = true) :
    (Step.after (handle e) s).WiredTo (Step.after (handle e) s).editor? := by
  by_cases hspares : e.sparesWiring = true
  · have hwires := wires_handle hspares s
    rw [show (Step.after (Session.handle e) s).editor? = s.editor? from hwires.host]
    exact h.wires hwires.desk
  · cases e with
    | turnTo editor =>
      obtain ⟨s', hset, heditor, hwired⟩ := h.setEditor hkept editor
      have hafter : Step.after (Session.handle (.turnTo editor)) s = s' := Step.after_of_ok hset
      rw [hafter, heditor]
      exact hwired
    | closed => cases he
    | perished => cases he
    | _ => exact absurd rfl hspares

/-- After ordinary events the session is wired to its editor. -/
theorem WiredTo.run (h : s.WiredTo s.editor?) (hkept : s.Kept trace) {events : List Event}
    (hordinary : ∀ e ∈ events, e.isOrdinary = true) :
    (s.run events).WiredTo (s.run events).editor? := by
  induction events generalizing s trace with
  | nil => exact h
  | cons e rest ih =>
    exact ih (h.handle hkept (hordinary e List.mem_cons_self)) (hkept.handle e)
      fun e' he' => hordinary e' (List.mem_cons_of_mem _ he')

/-- In the beginning the session is wired to nobody. -/
theorem wiredTo_start {settings : Json} {languages : String → Option String} {desk : Desk}
    (hnew : ∀ name e, desk.editor? name = some e → e.alive = true ∧ e.connected = [])
    (h : start settings languages desk = .ok s) : s.WiredTo s.editor? := by
  unfold start at h
  cases hsettings : Settings.normalize settings with
  | error fault => rw [hsettings] at h; cases h
  | ok members =>
    rw [hsettings] at h
    cases h
    exact hnew

/-- A signal of the session's editor is received once, and that of another editor is not. -/
theorem hear_eq (h : s.WiredTo s.editor?) {name : String} {e : Editor}
    (he : s.desk.editor? name = some e) (signal : Signal) : hear name signal s =
      if s.editor? = some name ∧ signal ∈ e.signals then receive signal s else .ok () s := by
  have hhear : hear name signal s = (e.connected.filter (· = signal)).forM receive s := by
    unfold hear
    rw [Step.bind_of_ok (Step.get_apply s), he]
    rfl
  have honce : e.present.filter (· = signal) = if signal ∈ e.signals then [signal] else [] := by
    rw [Editor.present, List.filter_filter]
    by_cases hsignal : signal ∈ e.signals <;> cases signal <;> simp [Signal.all, hsignal]
  rw [hhear, (h name e he).2]
  by_cases hhost : s.editor? = some name
  · rw [if_pos hhost, honce]
    by_cases hsignal : signal ∈ e.signals
    · rw [if_pos hsignal, if_pos ⟨hhost, hsignal⟩]
      obtain ⟨s', hreceive⟩ := receive_ok signal s
      exact (Step.bind_of_ok hreceive).trans hreceive.symm
    · rw [if_neg hsignal, if_neg fun hboth => hsignal hboth.2]
      rfl
  · rw [if_neg hhost, if_neg fun hboth => hhost hboth.1]
    rfl

/-- A session over editors that are there, grant every call, bear no decorations at first and are
not connected, after events before its end in which no editor is lost. The signals that its editor
can send are connected, each once, and are received once when they are sent; all other editors have
no connection, bear no decoration and are not heard. Turning to an editor, or to none, succeeds and
makes it the session's editor and the host of the decorations; turning to the editor that the
session has already changes nothing. -/
theorem wired_run {settings : Json} {languages : String → Option String} {desk : Desk}
    {s₀ : Session} (hdesk : desk.Blank)
    (hnew : ∀ name e, desk.editor? name = some e → e.alive = true ∧ e.connected = [])
    (hstart : start settings languages desk = .ok s₀) (events : List Event)
    (hordinary : ∀ e ∈ events, e.isOrdinary = true) :
    let s := s₀.run events
    (∀ name e, s.desk.editor? name = some e →
      e.connected = (if s.editor? = some name then e.present else []) ∧
      (s.editor? ≠ some name → e.canvas.layers = []) ∧
      ∀ signal, hear name signal s =
        if s.editor? = some name ∧ signal ∈ e.signals then receive signal s else .ok () s) ∧
    (∀ editor, let s' := s₀.run (events ++ [.turnTo editor])
      handle (.turnTo editor) s = .ok () s' ∧ s'.editor? = editor ∧
        s'.masking.editor? = editor ∧ s'.masking.decorations.host = editor) ∧
    handle (.turnTo s.editor?) s = .ok () s := by
  intro s
  have hwired : s.WiredTo s.editor? :=
    (wiredTo_start hnew hstart).run (kept_start hdesk hstart) hordinary
  have hkept : s.Kept (s₀.trace events) := (kept_start hdesk hstart).run events
  refine ⟨fun name e he => ?_, fun editor => ?_, s.setEditor_self⟩
  · obtain ⟨halive, hconnected⟩ := hwired name e he
    exact ⟨hconnected, (hkept.canvas name e he).2.2 halive, hear_eq hwired he⟩
  · -- turning to an editor succeeds, as clearing an ordinary desk does
    obtain ⟨s', hset, heditor, -⟩ := hwired.setEditor hkept editor
    have hrun : s₀.run (events ++ [.turnTo editor]) = s' := by
      rw [run_append]
      exact Step.after_of_ok hset
    intro s''
    rw [show s'' = s' from hrun]
    exact ⟨hset, heditor, heditor, heditor⟩

/-- A desk with two editors, which can send different signals. -/
def bothWays : Desk where
  editors :=
    [("e", { content := .given (some { text := "a b" }) [] .null
             signals := [.textChanged, .selectionChanged] }),
      ("f", { content := .given (some { text := "b" }) [] .null, signals := [.saved] })]

/-- There and back again, with an update on the way. -/
def toAndFro : List Event :=
  [.turnTo (some "e"), .pauseOver, .turnTo (some "f"), .turnTo (some "e")]

/-- After a turn to and fro only the last editor is connected, each of its signals once. -/
theorem wired_bothWays : ∃ s₀, start (always letterEntries) (fun _ => none) bothWays = .ok s₀ ∧
    let s := s₀.run toAndFro
    s.editor? = some "e" ∧ handle (.turnTo (some "e")) s = .ok () s ∧
      (s.desk.editor? "e").map Editor.connected = some [.selectionChanged, .textChanged] ∧
      (s.desk.editor? "f").map (fun e => (e.connected, e.canvas.layers)) = some ([], []) := by
  obtain ⟨s₀, hstart, hreached⟩ := @exists_start (always letterEntries) (fun _ => none) bothWays
    (fun s₀ =>
      let s := s₀.run toAndFro
      s.editor? = some "e" ∧ (s.desk.editor? "f").isSome ∧
        (s.desk.editor? "e").map Editor.present = some [.selectionChanged, .textChanged])
    (by decide +kernel)
  obtain ⟨heditor, hthere, hpresent⟩ := of_decide_eq_true hreached
  have hwilling : ({} : Canvas).Willing := ⟨rfl, fun _ => rfl⟩
  have hblank : bothWays.Blank := Desk.blank_of_forall (by simp [bothWays, hwilling])
  have hnew : ∀ name e, bothWays.editor? name = some e → e.alive = true ∧ e.connected = [] :=
    fun _ _ => Desk.forall_editor? (P := fun e => e.alive = true ∧ e.connected = [])
      (by simp [bothWays])
  obtain ⟨hwired, -, hsame⟩ := wired_run hblank hnew hstart toAndFro (by decide)
  refine ⟨s₀, hstart, heditor, ?_, ?_, ?_⟩
  · rw [← heditor]
    exact hsame
  · obtain ⟨e, he, hsignals⟩ := Option.map_eq_some_iff.mp hpresent
    rw [he, Option.map_some, (hwired "e" e he).1, if_pos heditor, hsignals]
  · obtain ⟨e, he⟩ := Option.isSome_iff_exists.mp hthere
    have hother : (s₀.run toAndFro).editor? ≠ some "f" := by
      rw [heditor]
      decide
    -- the other editor is there, without connections or layers
    obtain ⟨hconnected, hlayers, -⟩ := hwired "f" e he
    rw [if_neg hother] at hconnected
    rw [he, Option.map_some, hconnected, hlayers hother]

end Session

end Conceal
