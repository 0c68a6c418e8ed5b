import Conceal.Proofs.Decoration.Tidy
import Conceal.Proofs.Session.Frame

/-!
What leaves the decorations of a session alone: signals, grammars, scopes, and all that happens to
editors beside their canvases. Only another editor, other settings, the end, and updates do not.
-/

namespace Conceal

namespace Desk.Calm

/-- An editor is asked for its document. -/
theorem of_snapshot (name : String) (d : Desk) : Calm d (Step.after (Desk.snapshot name) d) := by
  cases he : d.editor? name with
  | none =>
    have hsnapshot : Desk.snapshot name d = .ok none d := by simp only [Desk.snapshot, he]
    rw [Step.after_of_ok hsnapshot]
    exact refl d
  | some e =>
    -- a typed area may remember its document, which changes its content and nothing else
    have hsnapshot : Desk.snapshot name d = .ok e.snapshot.1
        ((d.note name .document).change name fun _ => e.snapshot.2) := by
      simp only [Desk.snapshot, he]
    rw [Step.after_of_ok hsnapshot]
    have hchange (n : String) :
        ((d.note name .document).change name fun _ => e.snapshot.2).editor? n
          = if n = name then some e.snapshot.2 else d.editor? n := by
      rw [editor?_change]
      split
      next hn => subst hn; exact congrArg (Option.map _) he
      · rfl
    refine ⟨rfl, fun n => ?_, fun n => ?_⟩
    · rw [hchange]
      split
      next hn => subst hn; rw [he]; exact congrArg some e.canvas_snapshot
      · rfl
    · rw [isAlive, hchange, isAlive]
      split
      next hn =>
        subst hn
        rw [he, Option.any_some, Option.any_some]
        exact fun halive => (congrArg Face.alive e.face_snapshot).symm.trans halive
      · exact id

end Desk.Calm

namespace Session

/-- The later session has the same settings, host and handles, and nothing but contents and the loss
of editors has changed on the desk. -/
structure Calm (s s' : Session) : Prop where
  settings : s'.settings = s.settings
  host : s'.masking.decorations.host = s.masking.decorations.host
  handles : s'.masking.decorations.handles = s.masking.decorations.handles
  desk : s.desk.Calm s'.desk

theorem Calm.refl (s : Session) : Calm s s := ⟨rfl, rfl, rfl, Desk.Calm.refl _⟩

/-- Calm changes, one after the other, are calm. -/
theorem Calm.trans {s s' s'' : Session} (h : Calm s s') (h' : Calm s' s'') : Calm s s'' :=
  ⟨h'.settings.trans h.settings, h'.host.trans h.host, h'.handles.trans h.handles,
    h.desk.trans h'.desk⟩

instance : Std.Refl Calm := ⟨Calm.refl⟩

instance : Trans Calm Calm Calm := ⟨Calm.trans⟩

/-- A change of neither the settings nor the decorations is calm. -/
theorem Calm.of_eq {s s' : Session} (hsettings : s'.settings = s.settings)
    (hdecorations : s'.masking.decorations = s.masking.decorations) : Calm s s' := by
  refine ⟨hsettings, by rw [hdecorations], by rw [hdecorations], ?_⟩
  rw [Session.desk, Session.desk, hdecorations]
  exact Desk.Calm.refl _

/-- So is one of an editor that leaves its canvas alone and does not bring it back. -/
theorem Calm.of_change (s : Session) (name : String) {f : Editor → Editor}
    (hcanvas : ∀ e, (f e).canvas = e.canvas) (halive : ∀ e, (f e).alive → e.alive) :
    Calm s (s.changeEditor name f) :=
  ⟨rfl, rfl, rfl, Desk.Calm.of_change s.desk name hcanvas halive⟩

/-- A step that leaves the decorations alone. -/
def Quiet {α : Type} (act : Step Session α) : Prop := ∀ s, Calm s (Step.after act s)

section Quiet

variable {α β : Type}

theorem quiet_modify {f : Session → Session} (h : ∀ s, Calm s (f s)) :
    Quiet (modify f : Step Session PUnit) := h

/-- Quiet operations, one after the other, are quiet. -/
theorem Quiet.bind {x : Step Session α} {f : α → Step Session β} (hx : Quiet x)
    (hf : ∀ a, Quiet (f a)) : Quiet (x >>= f) :=
  Step.Obeys.bind (R := Calm) hx hf

theorem quiet_forSome {x : Option α} {act : α → Step Session Unit} (h : ∀ a, Quiet (act a)) :
    Quiet (Step.forSome x act) :=
  Step.obeys_forSome (R := Calm) h

/-- What is calm on the desk is quiet in the session. -/
theorem quiet_onDesk {act : Step Desk α} (h : ∀ d : Desk, d.Calm (Step.after act d)) :
    Quiet (onDesk act) := by
  intro s
  rw [after_onDesk]
  exact ⟨rfl, rfl, rfl, h s.desk⟩

end Quiet

/-! ## Grammars -/

theorem calm_useTokenizer (t : Option Tokenizer) (scopeName : String) (s : Session) :
    Calm s (useTokenizer t scopeName s) :=
  Calm.of_eq rfl rfl

theorem calm_poll (s : Session) : Calm s s.poll :=
  rel_poll (fun _ _ _ _ => Calm.of_eq rfl rfl) (fun _ _ _ => Calm.of_eq rfl rfl) s

/-- A request for a grammar is nothing to the decorations. -/
theorem quiet_requestGrammar : Quiet requestGrammar :=
  obeys_requestGrammar (fun _ => Calm.of_eq rfl rfl)
    (fun s name _ => quiet_onDesk (Desk.Calm.of_snapshot name) s)
    (fun _ _ => Calm.of_eq rfl rfl) (calm_useTokenizer none "") (fun _ _ => Calm.of_eq rfl rfl)

/-! ## Events -/

theorem hearing_calm : Hearing Calm where
  request := quiet_requestGrammar
  schedule _ := Calm.of_eq rfl rfl
  textChanged _ := Calm.of_eq rfl rfl

theorem quiet_languageMayChange : Quiet languageMayChange := hearing_calm.languageMayChange

/-- All but a few kinds of events are quiet. -/
theorem quiet_handle {e : Event} (h : e.sparesDecorations = true) : Quiet (handle e) :=
  hearing_calm.handle (fun s name _ hcanvas halive => Calm.of_change s name hcanvas halive)
    (fun _ _ _ => Calm.of_eq rfl rfl) calm_poll h

end Session

end Conceal
