import Conceal.Proofs.Session.Heard
import Conceal.Proofs.Session.Requests
import Mathlib.Data.List.Chain

/-!
The pause before an update. Whatever calls for an update starts the pause, and it runs until the
update begins; so an update begins only when something has called for it since the last one, and any
number of calls leads to one update. Main statement: `updates_follow_calls`.
-/

namespace Conceal.Session

variable {s s₀ : Session}

/-! ## What calls for an update -/

/-- Does an event call for an update? Every signal that the session hears does, and the answer to its
last request when that is taken up. Another editor and other settings do, unless the session fails
with them on the way. -/
def callsForUpdate (s : Session) : Event → Bool
  | .turnTo editor => editor ≠ s.editor? && (Step.outcome (setEditor editor) s).isOk
  | .settingsChanged settings => (Step.outcome (setSettings settings) s).isOk
  | .polled => s.pending.any fun r => r.number = s.requests ∧ r.delivery.isSome
  | e => !(s.heard e).isEmpty

/-- What concerns the updates of a session. -/
inductive Mark where
  /-- Something has called for an update. -/
  | called
  /-- An update has begun. -/
  | begun
deriving DecidableEq, Repr

/-- What concerns the updates in an event. An update begins when the pause is over, if it was
running. -/
def mark? (s : Session) : Event → Option Mark
  | .pauseOver => if s.waiting then some .begun else none
  | e => if s.callsForUpdate e then some .called else none

/-- Only the end of a pause begins an update; all else calls for one, or not. -/
theorem mark?_of_ne {e : Event} (h : e ≠ .pauseOver) :
    s.mark? e = if s.callsForUpdate e then some .called else none := by
  cases e with
  | pauseOver => exact absurd rfl h
  | _ => rfl

/-- What concerns the updates in a run, in order. -/
def marks (s : Session) : List Event → List Mark
  | [] => []
  | e :: rest => (s.mark? e).toList ++ (Step.after (handle e) s).marks rest

/-- The marks of a run are those of its first part and then those of the rest. -/
theorem marks_append (s : Session) (before rest : List Event) :
    s.marks (before ++ rest) = s.marks before ++ (s.run before).marks rest := by
  induction before generalizing s with
  | nil => rfl
  | cons e before ih => rw [List.cons_append, marks, marks, ih, List.append_assoc, run_cons]

theorem marks_concat (s : Session) (events : List Event) (e : Event) :
    s.marks (events ++ [e]) = s.marks events ++ ((s.run events).mark? e).toList := by
  rw [marks_append, marks, marks, List.append_nil]

/-! ## Calls start the pause -/

/-- After a signal the session waits. -/
theorem waiting_receive (signal : Signal) (s : Session) :
    (Step.after (receive signal) s).waiting = true := by
  have hlanguage : (Step.after languageMayChange s).waiting = true := by
    unfold languageMayChange
    rw [Step.after_bind_of_ok (requestGrammar_eq s)]
    rfl
  cases signal with
  | saved => exact hlanguage
  | languageChanged => exact hlanguage
  | _ => rfl

/-- After signals the session waits, unless there were none. -/
theorem waiting_forM_receive (signals : List Signal) (s : Session) :
    (Step.after (signals.forM receive) s).waiting = (s.waiting || !signals.isEmpty) := by
  induction signals generalizing s with
  | nil => exact (Bool.or_false _).symm
  | cons signal rest ih =>
    obtain ⟨s', hreceive⟩ := receive_ok signal s
    have hwaiting := waiting_receive signal s
    have hafter : Step.after ((signal :: rest).forM receive) s = Step.after (rest.forM receive) s' :=
      Step.after_bind_of_ok hreceive
    rw [Step.after_of_ok hreceive] at hwaiting
    rw [hafter, ih, hwaiting, Bool.true_or, List.isEmpty_cons, Bool.not_false, Bool.or_true]

/-- Work on an editor makes the session wait exactly if it hears of it. -/
theorem waiting_worked (name : String)
    (act : TextArea → List Layer → Except Fault (TextArea × List Signal)) (s : Session) :
    (Step.after (handle (.worked name act)) s).waiting =
      (s.waiting || !(s.heard (.worked name act)).isEmpty) := by
  rcases worked_cases name act s with ⟨hnone, hsame⟩ | ⟨content, hafter⟩
  · rw [hnone, hsame, List.isEmpty_nil, Bool.not_true, Bool.or_false]
  · rw [hafter]
    exact waiting_forM_receive _ _

/-- Taking up an editor ends, and the session waits. -/
theorem takeUp_ok (editor : Option String) (s : Session) :
    ∃ s', takeUp editor s = .ok () s' ∧ s'.waiting = true := by
  have hsettleIn (document : Option Document) (s : Session) :
      ∃ s', settleIn editor document s = .ok () s' ∧ s'.waiting = true := by
    unfold settleIn
    rw [Step.bind_of_ok (Step.modify_apply s _)]
    cases editor with
    | none => exact ⟨_, Step.bind_of_ok (requestGrammar_eq _), rfl⟩
    | some name => exact ⟨_, Step.bind_of_ok (requestGrammar_eq _), rfl⟩
  cases editor with
  | none => exact hsettleIn none s
  | some name =>
    have hasked : takeUp (some name) s = settleIn (some name) (s.desk.document? name)
        (Step.after (onDesk (Desk.snapshot name)) s) :=
      Step.bind_of_ok (onDesk_snapshot_eq name s)
    rw [hasked]
    exact hsettleIn _ _

/-- After a turn to another editor the session waits. -/
theorem waiting_setEditor (editor : Option String) (s : Session) :
    (Step.after (setEditor editor) s).waiting =
      (s.waiting || s.callsForUpdate (.turnTo editor)) := by
  by_cases heq : editor = s.editor?
  · rw [setEditor_of_eq heq]
    simp [callsForUpdate, heq]
  · rcases setEditor_cases heq with ⟨d, -, hset⟩ | ⟨fault, d, -, hset⟩
    · obtain ⟨s', htakeUp, hwaiting⟩ :=
        takeUp_ok editor { s.letGo with masking.decorations := { d with host := editor } }
      have hok : setEditor editor s = .ok () s' := hset.trans htakeUp
      have hcalls : s.callsForUpdate (.turnTo editor) = true := by
        simp [callsForUpdate, heq, Step.outcome, hok, Except.isOk, Except.toBool]
      rw [Step.after_of_ok hok, hwaiting, hcalls, Bool.or_true]
    · have hcalls : s.callsForUpdate (.turnTo editor) = false := by
        simp [callsForUpdate, Step.outcome, hset, Except.isOk, Except.toBool]
      have hletGo : s.letGo.waiting = s.waiting := by rw [(redecorates_letGo s).rest]
      rw [Step.after_of_error hset, hcalls, Bool.or_false]
      exact hletGo

/-- After other settings the session waits, if they call for an update. -/
theorem waiting_setSettings (settings : Json) (s : Session) :
    (Step.after (setSettings settings) s).waiting =
      (s.waiting || s.callsForUpdate (.settingsChanged settings)) := by
  -- three steps: the settings are kept, the decorations cleared, and an update is called for
  have hset : setSettings settings s =
      (Step.ofExcept (Settings.normalize settings) >>= fun settings => do
      modify fun s : Session => { s with settings }
      onMasking (Masking.onDecorations Decorations.clear)
      modify fun s => { s with stale := true }.schedule : Step Session Unit) s := rfl
  cases hmembers : Settings.normalize settings with
  | error fault =>
    rw [hmembers] at hset
    have hfailed : setSettings settings s = .error fault s := hset
    simp [callsForUpdate, Step.outcome, hfailed, Step.after_of_error hfailed, Except.isOk,
      Except.toBool]
  | ok members =>
    rw [hmembers, Step.bind_of_ok (show Step.ofExcept (.ok members) s = .ok members s from rfl),
      Step.bind_of_ok (Step.modify_apply s _)] at hset
    let t : Session := { s with settings := members }
    have hredecorates := redecorates_clear t
    cases hclear : onMasking (Masking.onDecorations Decorations.clear) t with
    | error fault s' =>
      have hfailed : setSettings settings s = .error fault s' :=
        hset.trans (Step.bind_of_error hclear)
      rw [Step.after_of_error hclear] at hredecorates
      have hwaiting : s'.waiting = s.waiting := by rw [hredecorates.rest]
      simp [callsForUpdate, Step.outcome, hfailed, Step.after_of_error hfailed, hwaiting,
        Except.isOk, Except.toBool]
    | ok _ s' =>
      have hok : setSettings settings s = .ok () { s' with stale := true }.schedule :=
        hset.trans (Step.bind_of_ok hclear)
      simp [callsForUpdate, Step.outcome, hok, Step.after_of_ok hok, Except.isOk, Except.toBool,
        schedule]

/-- A look at the deliveries starts the pause when it settles the last request. -/
theorem waiting_poll (h : s.ledger.Counted) :
    s.poll.waiting = (s.waiting || s.callsForUpdate .polled) := by
  rcases poll_cases h with ⟨d, hr, hpoll⟩ | ⟨hnone, hpoll⟩
  · have hcalls : s.callsForUpdate .polled = true :=
      List.any_eq_true.mpr ⟨_, hr, by simp⟩
    have hsettle : (settle s.requests s.scopeName d s).waiting = true := by
      unfold settle
      rw [if_neg (fun hne => hne rfl)]
      rfl
    rw [hpoll, hcalls, Bool.or_true]
    exact hsettle
  · have hcalls : s.callsForUpdate .polled = false := by
      refine List.any_eq_false.mpr fun r hr hdelivered => ?_
      obtain ⟨hnumber, hsome⟩ := of_decide_eq_true hdelivered
      rw [hnone r hr hnumber] at hsome
      cases hsome
    rw [hpoll, hcalls, Bool.or_false]

/-! ## Updates end it -/

/-- The pause of the later session is running exactly when that of the earlier one is. -/
def Lingers (s s' : Session) : Prop := s'.waiting = s.waiting

instance : Std.Refl Lingers := ⟨fun _ => rfl⟩

instance : Trans Lingers Lingers Lingers := ⟨fun h h' => Eq.trans h' h⟩

/-- Masking does not touch the pause. -/
theorem lingers_onMasking {α : Type} (act : Step Masking α) :
    Step.Obeys Lingers (onMasking act) := fun s => by
  rw [onMasking, Step.after_on]
  rfl

theorem lingers_maskDocument (document : Document) :
    Step.Obeys Lingers (maskDocument document) := by
  have hscopes : Step.Obeys Lingers (ensureScopes document) := fun s => by
    have hfinds := finds document s
    rw [Step.after]
    generalize ensureScopes document s = r at hfinds ⊢
    cases hfinds <;> rfl
  unfold maskDocument
  exact hscopes.bind fun _ => Step.obeys_get.bind fun _ =>
    (lingers_onMasking _).bind fun _ => Step.obeys_modify fun _ => rfl

/-- An update does not start the pause again. -/
theorem lingers_update : Step.Obeys Lingers update := by
  unfold update
  refine Step.obeys_get.bind fun s => ?_
  split
  · exact Step.obeys_pure _
  · split
    · exact lingers_onMasking _
    · split
      · exact (lingers_onMasking _).bind fun _ => Step.obeys_forSome lingers_maskDocument
      · exact (Step.obeys_pure _).bind fun _ => Step.obeys_forSome lingers_maskDocument

/-- The end of a pause is an update, if the session was waiting. -/
theorem fire_eq (s : Session) :
    fire s = if s.waiting then update s.stopped else .ok () s := by
  split
  next hwaiting => exact fire_of_waiting hwaiting
  next hidle =>
    unfold fire
    rw [Step.bind_of_ok (Step.get_apply s), if_neg hidle]
    rfl

/-- After the end of a pause the session does not wait. -/
theorem waiting_fire (s : Session) : (Step.after fire s).waiting = false := by
  rw [Step.after, fire_eq]
  cases hwaiting : s.waiting with
  | true => exact lingers_update s.stopped
  | false => exact hwaiting

/-! ## Whole runs -/

/-- Any event but the end of the pause starts the pause if it calls for an update. -/
theorem waiting_call (h : s.ledger.Counted) {e : Event} (he : e ≠ .closed)
    (hover : e ≠ .pauseOver) :
    (Step.after (handle e) s).waiting = (s.waiting || s.callsForUpdate e) := by
  cases e with
  | closed => exact absurd rfl he
  | pauseOver => exact absurd rfl hover
  | turnTo editor => exact waiting_setEditor editor s
  | settingsChanged settings => exact waiting_setSettings settings s
  | polled => exact waiting_poll h
  | told signal => exact (waiting_receive signal s).trans (Bool.or_true _).symm
  | sent name signal => exact waiting_forM_receive _ s
  | worked name act => exact waiting_worked name act s
  | _ => exact (Bool.or_false _).symm

/-- After an event the pause is running if the event has called for an update, and not if an update
has begun; else nothing has changed. -/
theorem waiting_handle (h : s.ledger.Counted) {e : Event} (he : e ≠ .closed) :
    (Step.after (handle e) s).waiting =
      match s.mark? e with
      | some .called => true
      | some .begun => false
      | none => s.waiting := by
  by_cases hover : e = .pauseOver
  · rw [hover, handle, waiting_fire, mark?]
    cases hwaiting : s.waiting <;> rfl
  · rw [mark?_of_ne hover, waiting_call h he hover]
    cases s.callsForUpdate e
    · exact Bool.or_false _
    · exact Bool.or_true _

/-- Updates begin only while the pause is running. -/
theorem waiting_of_begun {e : Event} (h : s.mark? e = some .begun) : s.waiting = true := by
  by_contra hidle
  by_cases hover : e = .pauseOver
  · rw [hover, mark?, if_neg hidle] at h
    cases h
  · rw [mark?_of_ne hover] at h
    split at h <;> cases h

/-- What holds of the pause after events. -/
structure Paused (s₀ : Session) (events : List Event) : Prop where
  /-- Right before an update something has called for it. -/
  ordered : (.begun :: s₀.marks events).IsChain fun a b => b = .begun → a = .called
  waiting : (s₀.run events).waiting = true ↔ (s₀.marks events).getLast? = some .called

/-- One more event before the end keeps the pause in order. -/
theorem Paused.concat {events : List Event} {e : Event} (h : s₀.Paused events)
    (hcounted : (s₀.run events).ledger.Counted) (he : e ≠ .closed) :
    s₀.Paused (events ++ [e]) := by
  have hwaiting := waiting_handle hcounted he
  have hrun : s₀.run (events ++ [e]) = Step.after (handle e) (s₀.run events) := run_concat ..
  cases hmark : (s₀.run events).mark? e with
  | none =>
    have hmarks : s₀.marks (events ++ [e]) = s₀.marks events := by
      rw [marks_concat, hmark, Option.toList_none, List.append_nil]
    rw [hmark] at hwaiting
    exact ⟨hmarks ▸ h.ordered, by rw [hrun, hwaiting, hmarks]; exact h.waiting⟩
  | some mark =>
    have hmarks : s₀.marks (events ++ [e]) = s₀.marks events ++ [mark] := by
      rw [marks_concat, hmark, Option.toList_some]
    rw [hmark] at hwaiting
    refine ⟨?_, ?_⟩
    · rw [hmarks, ← List.cons_append, List.isChain_append]
      refine ⟨h.ordered, List.isChain_singleton _, ?_⟩
      rintro last hlast _ ⟨⟩ rfl
      -- the pause is running, so the last mark is a call
      have hcalled := h.waiting.mp (waiting_of_begun hmark)
      rw [Option.mem_def, List.getLast?_cons, hcalled] at hlast
      exact (Option.some.inj hlast).symm
    · rw [hrun, hwaiting, hmarks, List.getLast?_concat]
      cases mark <;> simp

/-- The pause is in order after any events before the end. -/
theorem paused_run {settings : Json} {languages : String → Option String} {desk : Desk}
    {events : List Event} (hstart : start settings languages desk = .ok s₀)
    (hopen : ∀ e ∈ events, e ≠ .closed) : s₀.Paused events := by
  induction events using List.reverseRecOn with
  | nil =>
    have hidle : s₀.waiting = false := by
      unfold start at hstart
      obtain ⟨members, -, hstart⟩ := bind_eq_ok.mp hstart
      cases hstart
      rfl
    exact ⟨List.isChain_singleton _, by simp [hidle, marks]⟩
  | append_singleton events e ih =>
    have hbefore : ∀ e ∈ events, e ≠ .closed := fun e he => hopen e (List.mem_append_left _ he)
    have hcounted := (orderly_run hstart hbefore).counted
    exact (ih hbefore).concat hcounted (hopen e (List.mem_append_right _ List.mem_cons_self))

/-- The pause follows what calls for updates, in every run that is not over.

Between two updates, and before the first one, something has called for an update: however often
that was, one update follows. The pause is running exactly when something has called for an update
and none has begun since, so no call is lost; when it is over, the update begins if the pause was
running, and nothing happens otherwise. While a request is pending, deliveries are looked for. -/
theorem updates_follow_calls {settings : Json} {languages : String → Option String} {desk : Desk}
    {events : List Event} (hstart : start settings languages desk = .ok s₀)
    (hopen : ∀ e ∈ events, e ≠ .closed) :
    let s := s₀.run events
    (.begun :: s₀.marks events).IsChain (fun a b => b = .begun → a = .called) ∧
    (s.waiting = true ↔ (s₀.marks events).getLast? = some .called) ∧
    handle .pauseOver s = (if s.waiting then update { s with waiting := false } else .ok () s) ∧
    (s.pending ≠ [] → s.polling = true) := by
  intro s
  have hpaused := paused_run hstart hopen
  have hcounted := (orderly_run hstart hopen).counted
  exact ⟨hpaused.ordered, hpaused.waiting, fire_eq s, hcounted.looking⟩

/-- The text changes twice before the first update, and a grammar comes before the second one. -/
def twoUpdates : List Event :=
  [.turnTo (some "e"), .told .textChanged, .pauseOver, .pauseOver, .turnTo (some "e"),
    .delivered 1 (.found (lineTokenizer 1)), .polled, .pauseOver, .told .saved]

/-- Two calls are followed by one update, a third one by another, and a fourth one waits. -/
theorem two_updates_follow : ∃ s₀,
    start (.obj []) (fun _ => some "text") Desk.twoLetters = .ok s₀ ∧
    (∀ e ∈ twoUpdates, e ≠ .closed) ∧
    s₀.marks twoUpdates = [.called, .called, .begun, .called, .begun, .called] ∧
    (s₀.run twoUpdates).waiting = true ∧ (s₀.run twoUpdates).pending ≠ [] ∧
    (s₀.run twoUpdates).polling = true := by
  obtain ⟨s₀, hstart, hready⟩ := @exists_start (.obj []) (fun _ => some "text") Desk.twoLetters
    (fun s₀ => decide (
      s₀.marks twoUpdates = [.called, .called, .begun, .called, .begun, .called] ∧
      (s₀.run twoUpdates).pending.length = 1))
    (by decide +kernel)
  obtain ⟨hmarks, hpending⟩ := of_decide_eq_true hready
  have hopen : ∀ e ∈ twoUpdates, e ≠ .closed := by
    intro e he
    simp only [twoUpdates, List.mem_cons, List.not_mem_nil, or_false] at he
    rcases he with rfl | rfl | rfl | rfl | rfl | rfl | rfl | rfl | rfl <;> exact fun h => by cases h
  have hne : (s₀.run twoUpdates).pending ≠ [] := by
    intro hnil
    rw [hnil] at hpending
    cases hpending
  obtain ⟨-, hwaiting, -, hpolling⟩ := updates_follow_calls hstart hopen
  exact ⟨s₀, hstart, hopen, hmarks, hwaiting.mpr (by rw [hmarks]; rfl), hne, hpolling hne⟩

end Conceal.Session
