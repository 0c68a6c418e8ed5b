import Conceal.Proofs.Masking.Contact
import Conceal.Proofs.Session.Frame
import Mathlib.Data.List.Basic

/-!
The signals that a session hears. A signal of an editor is heard once for every connection, and no
reaction to it fails; so whenever a session has heard that the text has changed, its scopes are
stale. Main statement: `stale_of_heard`.
-/

namespace Conceal.Session

variable {s s' : Session}

/-- The signals of an editor that go to the session. -/
def connected (s : Session) (name : String) : List Signal :=
  ((s.desk.editor? name).map Editor.connected).getD []

/-- The signals that a session hears in an event. -/
def heard (s : Session) : Event → List Signal
  | .told signal => [signal]
  | .sent name signal => (s.connected name).filter (· = signal)
  | .worked name act =>
    match (s.desk.editor? name).bind fun e => e.area?.map fun area => (e, area) with
    | some (e, area) =>
      match act area e.canvas.layers with
      | .ok (_, signals) => signals.flatMap fun signal => (s.connected name).filter (· = signal)
      | .error _ => []
    | none => []
  | _ => []

/-- The session hears at some point that the text has changed. -/
def HearsText (s : Session) (events : List Event) : Prop :=
  ∃ before e rest, events = before ++ e :: rest ∧ .textChanged ∈ (s.run before).heard e

/-- The same signals go to the later session, and stale scopes have not become fresh. -/
structure Listens (s s' : Session) : Prop where
  connected : ∀ name, s'.connected name = s.connected name
  stale : s.stale = true → s'.stale = true

instance : Std.Refl Listens := ⟨fun _ => ⟨fun _ => rfl, id⟩⟩

instance : Trans Listens Listens Listens :=
  ⟨fun h h' => ⟨fun name => (h'.connected name).trans (h.connected name), h'.stale ∘ h.stale⟩⟩

/-- Asking for a document leaves the connections. -/
theorem listens_snapshot (n : String) (s : Session) :
    Listens s (Step.after (onDesk (Desk.snapshot n)) s) := by
  rw [after_onDesk]
  refine ⟨fun name => ?_, fun hstale => hstale⟩
  have hsame (e : Editor) : e.snapshot.2.connected = e.connected := by
    unfold Editor.snapshot
    split <;> rfl
  have hconnected : ((Step.after (Desk.snapshot n) s.desk).editor? name).map Editor.connected =
      (s.desk.editor? name).map Editor.connected := by
    rw [Desk.editor?_snapshot]
    split
    · rw [Option.map_map]
      exact congrArg (Option.map · _) (funext hsame)
    · rfl
  exact congrArg (fun c => c.getD []) hconnected

/-- What signals set off leaves the connections, and makes nothing fresh. -/
theorem hearing_listens : Hearing Listens where
  request := obeys_requestGrammar (fun _ => ⟨fun _ => rfl, id⟩)
    (fun s name _ => listens_snapshot name s) (fun _ _ => ⟨fun _ => rfl, id⟩)
    (fun _ => ⟨fun _ => rfl, fun _ => rfl⟩) (fun _ _ => ⟨fun _ => rfl, id⟩)
  schedule _ := ⟨fun _ => rfl, id⟩
  textChanged _ := ⟨fun _ => rfl, fun _ => rfl⟩

/-! ## Reactions do not fail -/

/-- A signal is received without failing. -/
theorem receive_ok (signal : Signal) (s : Session) : ∃ s', receive signal s = .ok () s' := by
  have hlanguage : ∃ s', languageMayChange s = .ok () s' := by
    exact ⟨_, Step.bind_of_ok (requestGrammar_eq s)⟩
  cases signal with
  | saved => exact hlanguage
  | languageChanged => exact hlanguage
  | _ => exact ⟨_, rfl⟩

theorem forM_receive_ok (signals : List Signal) (s : Session) :
    ∃ s', signals.forM receive s = .ok () s' := by
  induction signals generalizing s with
  | nil => exact ⟨s, rfl⟩
  | cons signal rest ih =>
    obtain ⟨s₁, hreceive⟩ := receive_ok signal s
    obtain ⟨s₂, hrest⟩ := ih s₁
    exact ⟨s₂, (Step.bind_of_ok hreceive).trans hrest⟩

/-! ## Text that has changed makes scopes stale -/

/-- Among signals that are received, a changed text makes the scopes stale. -/
theorem stale_forM_receive {signals : List Signal} (h : .textChanged ∈ signals) (s : Session) :
    (Step.after (signals.forM receive) s).stale = true := by
  induction signals generalizing s with
  | nil => cases h
  | cons signal rest ih =>
    by_cases hsignal : signal = .textChanged
    · subst hsignal
      -- what is heard afterwards leaves the scopes stale
      have hlater := Step.rel_after_bind (R := Listens) (x := receive .textChanged)
        (f := fun _ => rest.forM receive) (s := s)
        fun _ s' _ => Step.obeys_forM hearing_listens.receive s'
      exact hlater.stale rfl
    · obtain ⟨s', hreceive⟩ := receive_ok signal s
      have hrest : .textChanged ∈ rest := List.mem_of_ne_of_mem (Ne.symm hsignal) h
      have hafter : Step.after ((signal :: rest).forM receive) s =
          Step.after (rest.forM receive) s' := Step.after_bind_of_ok hreceive
      rw [hafter]
      exact ih hrest s'

/-- What is heard of several signals is received one after the other: no reaction changes which
signals go to the session. -/
theorem forM_hear_eq (name : String) (signals : List Signal) (s : Session) :
    signals.forM (hear name) s =
      (signals.flatMap fun signal => (s.connected name).filter (· = signal)).forM receive s := by
  induction signals generalizing s with
  | nil => rfl
  | cons signal rest ih =>
    obtain ⟨s', hok⟩ := forM_receive_ok ((s.connected name).filter (· = signal)) s
    have hhear : hear name signal s = .ok () s' := hok
    have hlistens := hearing_listens.hear name signal s
    rw [Step.after_of_ok hhear] at hlistens
    have hfirst : (signal :: rest).forM (hear name) s = rest.forM (hear name) s' :=
      Step.bind_of_ok hhear
    have happend (later : List Signal) :
        ((s.connected name).filter (· = signal) ++ later).forM receive =
          (((s.connected name).filter (· = signal)).forM receive >>= fun _ => later.forM receive) :=
      List.forM_append
    rw [hfirst, ih, hlistens.connected, List.flatMap_cons, happend, Step.bind_of_ok hok]

/-- Another content leaves the connections. -/
theorem connected_changeEditor (name n : String) (content : Content) (s : Session) :
    (s.changeEditor n fun e => { e with content }).connected name = s.connected name := by
  have heditor := Desk.editor?_change s.desk n name fun e => { e with content }
  have hmap : ((s.desk.change n fun e => { e with content }).editor? name).map Editor.connected =
      (s.desk.editor? name).map Editor.connected := by
    rw [heditor]
    split
    · rw [Option.map_map]
      rfl
    · rfl
  exact congrArg (fun c => c.getD []) hmap

/-- Work that is done puts the new content in its place, and then its signals are received; work that
is not done leaves everything as it was. -/
theorem worked_cases (name : String)
    (act : TextArea → List Layer → Except Fault (TextArea × List Signal)) (s : Session) :
    (s.heard (.worked name act) = [] ∧ Step.after (handle (.worked name act)) s = s) ∨
      ∃ content : Content, Step.after (handle (.worked name act)) s =
        Step.after ((s.heard (.worked name act)).forM receive)
          (s.changeEditor name fun e => { e with content }) := by
  rw [handle, Step.after_bind_pure, edit, Step.after_bind_of_ok (Step.get_apply s), heard]
  cases (s.desk.editor? name).bind fun e => e.area?.map fun area => (e, area) with
  | none => exact Or.inl ⟨rfl, rfl⟩
  | some found =>
    obtain ⟨e, area⟩ := found
    dsimp only
    cases act area e.canvas.layers with
    | error fault => exact Or.inl ⟨rfl, rfl⟩
    | ok done =>
      obtain ⟨area', signals⟩ := done
      refine Or.inr ⟨.typed area', ?_⟩
      have hread : (Step.ofExcept ((Except.ok (area', signals)).map fun done => ((), done)) :
          Step Session (Unit × TextArea × List Signal)) s = .ok ((), area', signals) s := rfl
      rw [Step.after_bind_of_ok hread, Step.after_bind_of_ok (Step.modify_apply s _),
        Step.after_bind_pure, Step.after, forM_hear_eq, connected_changeEditor]
      rfl

/-- When a session has heard that the text has changed, its scopes are stale. -/
theorem stale_of_heard {e : Event} (h : .textChanged ∈ s.heard e) :
    (Step.after (handle e) s).stale = true := by
  cases e with
  | told signal =>
    obtain rfl : .textChanged = signal := List.mem_singleton.mp h
    rfl
  | sent name signal => exact stale_forM_receive h s
  | worked name act =>
    rcases worked_cases name act s with ⟨hnone, -⟩ | ⟨content, hafter⟩
    · rw [hnone] at h
      cases h
    · rw [hafter]
      exact stale_forM_receive h _
  | _ => cases h

/-- A change of the text is heard by then, or with the last event. -/
theorem hearsText_concat (s : Session) (events : List Event) (e : Event) :
    s.HearsText (events ++ [e]) ↔ s.HearsText events ∨ .textChanged ∈ (s.run events).heard e := by
  constructor
  · rintro ⟨before, e', rest, heq, hheard⟩
    rcases List.eq_nil_or_concat rest with rfl | ⟨rest, e'', rfl⟩
    · obtain ⟨rfl, hlast⟩ := List.append_inj' heq rfl
      cases hlast
      exact Or.inr hheard
    · rw [List.concat_eq_append, ← List.cons_append, ← List.append_assoc] at heq
      obtain ⟨rfl, -⟩ := List.append_inj' heq rfl
      exact Or.inl ⟨before, e', rest, rfl, hheard⟩
  · rintro (⟨before, e', rest, rfl, hheard⟩ | hheard)
    · exact ⟨before, e', rest ++ [e], by simp, hheard⟩
    · exact ⟨events, e, [], rfl, hheard⟩

end Conceal.Session
