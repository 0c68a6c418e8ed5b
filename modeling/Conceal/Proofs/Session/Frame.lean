import Conceal.Proofs.Editor.Face
import Conceal.Session.Run

/-!
What signals can do to a session. A signal starts the pause before an update, and some make the
session note that the text has changed or ask for a grammar; so what these three do not break, no
signal breaks. Main statement: `Hearing.handle`, for all events that leave the decorations alone.
-/

namespace Conceal.Session

/-! ## The host -/

/-- The editor of a session, if it is there. -/
def host? (s : Session) : Option String := s.editor?.filter s.desk.isAlive

section host

variable {s : Session} {name : String}

/-- The host is the session's editor as long as it is alive. -/
theorem host?_eq_some :
    s.host? = some name ↔ s.editor? = some name ∧ s.desk.isAlive name = true := by
  rw [host?, Option.filter_eq_some_iff]

theorem hasLiveEditor_eq (s : Session) : s.hasLiveEditor = s.host?.isSome := by
  unfold hasLiveEditor host?
  cases s.editor? with
  | none => rfl
  | some name => cases h : s.desk.isAlive name <;> simp [h]

/-- What is done on the desk leaves the rest of a session alone. -/
theorem after_onDesk {α : Type} (act : Step Desk α) (s : Session) :
    Step.after (onDesk act) s = { s with masking.decorations.desk := Step.after act s.desk } := by
  rw [onDesk, onMasking, Step.after_on, Masking.onDesk, Masking.onDecorations, Step.after_on,
    Decorations.onDesk, Step.after_on]
  rfl

/-- An editor that is asked answers with its document. -/
theorem onDesk_snapshot_eq (name : String) (s : Session) : onDesk (Desk.snapshot name) s =
    .ok (s.desk.document? name) (Step.after (onDesk (Desk.snapshot name)) s) := by
  have hok : onDesk (Desk.snapshot name) s = .ok (s.desk.document? name)
      { s with masking.decorations.desk := Step.after (Desk.snapshot name) s.desk } := by
    unfold onDesk onMasking Masking.onDesk Masking.onDecorations Decorations.onDesk
    exact Step.on_of_ok (Step.on_of_ok (Step.on_of_ok (Desk.snapshot_eq name s.desk)))
  rw [Step.after_of_ok hok, hok]

end host

/-! ## Requests -/

/-- The scope name of the language of the host's document, empty where there is none. -/
def wanted (s : Session) : String :=
  ((s.host?.bind s.desk.document?).bind fun d => s.languages d.languageId).getD ""

/-- The session when a request has been counted and the host, if there is one, has been asked for its
document. -/
def inquired (s : Session) : Session :=
  let counted := { s with requests := s.requests + 1 }
  match s.host? with
  | some name => Step.after (onDesk (Desk.snapshot name)) counted
  | none => counted

/-- A request does not fail. It asks for the grammar of the host's document, or uses none. -/
theorem requestGrammar_eq (s : Session) : requestGrammar s = .ok ()
    (if s.wanted = "" then useTokenizer none "" { s.inquired with scopeName := s.wanted }
    else request s.wanted { s.inquired with scopeName := s.wanted }) := by
  let counted : Session := { s with requests := s.requests + 1 }
  -- what is done with the scope name, once it is known
  have hanswer (t : Session) (scopeName : String) : (do
      modify fun s : Session => { s with scopeName }
      if scopeName = "" then modify (useTokenizer none "")
      else modify (request scopeName) : Step Session Unit) t = .ok ()
        (if scopeName = "" then useTokenizer none "" { t with scopeName }
        else request scopeName { t with scopeName }) := by
    rw [Step.bind_of_ok (Step.modify_apply t _)]
    split <;> rfl
  unfold requestGrammar wanted inquired host?
  rw [Step.bind_of_ok (Step.modify_apply s _), Step.bind_of_ok (Step.get_apply counted)]
  have heditor : counted.editor? = s.editor? := rfl
  have hdesk : counted.desk = s.desk := rfl
  rw [heditor, hdesk]
  cases s.editor? with
  | none => exact hanswer counted ""
  | some name =>
    rw [Option.filter_some]
    cases halive : s.desk.isAlive name with
    | false =>
      simp only [halive, Bool.false_eq_true, if_false]
      exact hanswer counted ""
    | true =>
      simp only [halive, if_true]
      rw [Step.bind_of_ok (onDesk_snapshot_eq name counted)]
      exact hanswer _ _

/-- What neither counting a request, nor asking the host for its document, nor acting on the answer
breaks, a request for a grammar does not break. -/
theorem obeys_requestGrammar {R : Session → Session → Prop} [Trans R R R]
    (hcount : ∀ s : Session, R s { s with requests := s.requests + 1 })
    (hsnapshot : ∀ (s : Session) (name : String), s.host? = some name →
      R s (Step.after (onDesk (Desk.snapshot name)) s))
    (hname : ∀ (s : Session) (scopeName : String), R s { s with scopeName })
    (hnone : ∀ s : Session, R s (useTokenizer none "" s))
    (hrequest : ∀ (s : Session) (scopeName : String), R s (request scopeName s)) :
    Step.Obeys R requestGrammar := by
  intro s
  have hinquired : R s s.inquired := by
    unfold inquired
    split
    next name hhost => exact Trans.trans (hcount s) (hsnapshot _ name hhost)
    · exact hcount s
  have hnamed := Trans.trans hinquired (hname s.inquired s.wanted)
  rw [Step.after_of_ok (requestGrammar_eq s)]
  split
  · exact Trans.trans hnamed (hnone _)
  · exact Trans.trans hnamed (hrequest _ _)

/-- What neither an answer nor dropping what was answered breaks, taking up deliveries does not
break. -/
theorem rel_poll {R : Session → Session → Prop} [Std.Refl R] [Trans R R R]
    (hanswer : ∀ (s : Session) (notices : List Notice) (t : Option Tokenizer) (scopeName : String),
      R s (schedule (useTokenizer t scopeName { s with masking.notices := notices })))
    (hdrop : ∀ (s : Session) (pending : List GrammarRequest) (polling : Bool),
      R s { s with pending, polling }) (s : Session) : R s s.poll := by
  -- an answer that is settled gives a tokenizer or takes it away
  have hsettle (number : Nat) (scopeName : String) (d : Delivery) (s : Session) :
      R s (settle number scopeName d s) := by
    unfold settle
    split
    · exact Std.Refl.refl s
    · cases d with
      | found t => exact hanswer s s.masking.notices (some t) scopeName
      | missing => exact hanswer s _ none ""
      | failed => exact hanswer s _ none ""
  have heach (rs : List GrammarRequest) (s : Session) : R s (settleEach rs s) := by
    induction rs generalizing s with
    | nil => exact Std.Refl.refl s
    | cons r rest ih =>
      unfold settleEach
      split
      · exact Trans.trans (hsettle _ _ _ s) (ih _)
      · exact ih s
  unfold poll
  split
  · exact Trans.trans (heach s.pending s) (hdrop _ _ _)
  · exact Std.Refl.refl s

/-! ## Signals -/

/-- A relation between a session and a later one that no reaction to a signal breaks. -/
structure Hearing (R : Session → Session → Prop) : Prop where
  request : Step.Obeys R requestGrammar
  schedule : ∀ s : Session, R s s.schedule
  textChanged : ∀ s : Session, R s s.textChanged

/-- Events that leave the decorations alone: all but another editor, other settings, updates and the
end. -/
def Event.sparesDecorations : Event → Bool
  | .turnTo _ | .settingsChanged _ | .pauseOver | .closed => false
  | _ => true

namespace Hearing

variable {R : Session → Session → Prop} [Trans R R R]

/-- Hearing that the language may have changed asks for a grammar at most. -/
theorem languageMayChange (h : Hearing R) : Step.Obeys R Session.languageMayChange :=
  h.request.bind fun _ => Step.obeys_modify h.schedule

/-- What a signal sets off is one of a few things. -/
theorem receive (h : Hearing R) (signal : Signal) : Step.Obeys R (Session.receive signal) := by
  cases signal with
  | textChanged => exact Step.obeys_modify h.textChanged
  | saved => exact h.languageMayChange
  | languageChanged => exact h.languageMayChange
  | _ => exact Step.obeys_modify h.schedule

variable [Std.Refl R]

/-- A signal sets off the same once for every connection. -/
theorem hear (h : Hearing R) (name : String) (signal : Signal) :
    Step.Obeys R (Session.hear name signal) :=
  Step.obeys_get.bind fun _ => Step.obeys_forM h.receive

/-- Work on an area puts another one in its place, and then its signals are heard. -/
theorem edit {α : Type} (h : Hearing R) (name : String)
    (hchange : ∀ (s : Session) (area : TextArea),
      R s (s.changeEditor name fun e => { e with content := .typed area }))
    (act : TextArea → List Layer → Except Fault (α × TextArea × List Signal)) :
    Step.Obeys R (Session.edit name act) := by
  unfold Session.edit
  refine Step.obeys_get.bind fun s => ?_
  split
  next e area _ =>
    refine (Step.obeys_ofExcept _).bind fun done => ?_
    refine Step.Obeys.bind (Step.obeys_modify fun s => hchange s done.2.1) fun _ => ?_
    exact (Step.obeys_forM (h.hear name)).bind fun _ => Step.obeys_pure _
  · exact Step.obeys_pure none

/-- What neither signals, nor changes of editors beside their canvases, nor deliveries break. -/
theorem handle (h : Hearing R)
    (hchange : ∀ (s : Session) (name : String) (f : Editor → Editor),
      (∀ e, (f e).canvas = e.canvas) → (∀ e, (f e).alive → e.alive) → R s (s.changeEditor name f))
    (hdeliver : ∀ (s : Session) (number : Nat) (d : Delivery), R s (deliver number d s))
    (hpoll : ∀ s : Session, R s s.poll) {e : Event} (he : e.sparesDecorations = true) :
    Step.Obeys R (Session.handle e) := by
  -- the first four touch decorations and are excluded; each other event is one of those heard
  cases e with
  | turnTo => cases he
  | settingsChanged => cases he
  | pauseOver => cases he
  | closed => cases he
  | told signal => exact h.receive signal
  | delivered number d => exact Step.obeys_modify fun s => hdeliver s number d
  | polled => exact Step.obeys_modify hpoll
  | displayed name document =>
    refine Step.obeys_modify fun s => hchange s name _ (fun e => ?_) fun e => ?_
    · unfold Editor.display; split <;> rfl
    · unfold Editor.display; split <;> exact id
  | chosen name selections =>
    refine Step.obeys_modify fun s => hchange s name _ (fun e => ?_) fun e => ?_
    · unfold Editor.choose; split <;> rfl
    · unfold Editor.choose; split <;> exact id
  | styled name caretStyle =>
    refine Step.obeys_modify fun s => hchange s name _ (fun e => ?_) fun e => ?_
    · unfold Editor.restyle; split <;> rfl
    · unfold Editor.restyle; split <;> exact id
  | sent name signal => exact h.hear name signal
  | worked name act =>
    refine (h.edit name (fun s area => ?_) _).bind fun _ => Step.obeys_pure _
    exact hchange s name _ (fun _ => rfl) fun _ => id
  | perished name =>
    exact Step.obeys_modify fun s => hchange s name _ (fun _ => rfl) fun e halive => by cases halive

end Hearing

end Conceal.Session
