import Conceal.Proofs.Masking.Pass

/-!
Which entries an update applies, in which states, and what the calls of each application draw.
Main statements: `Application.spec`, what one application leads to, and `update_induct`, by which
what every application keeps is kept by whole updates, together with their traces.
-/

namespace Conceal

/-- An entry that is applied in a state. -/
structure Application where
  entry : Entry
  caretStyle : String
  before : Masking

namespace Application

/-- The state after the application, whether or not it failed. -/
def after (a : Application) : Masking :=
  Step.after (Masking.apply a.entry.pattern a.entry.mask a.caretStyle) a.before

/-- The calls that the application makes, the newest first. -/
def calls (a : Application) : List (String × Call) :=
  let later := a.after.decorations.desk.calls
  later.take (later.length - a.before.decorations.desk.calls.length)

/-- Does the application give the decoration with a handle on an editor's canvas stretches? -/
def Sets (a : Application) (name : String) (handle : Nat) : Prop :=
  Board.Sets name a.calls handle

instance (a : Application) (name : String) (handle : Nat) : Decidable (a.Sets name handle) :=
  inferInstanceAs (Decidable (Board.Sets name a.calls handle))

/-- What the application draws, nothing if it fails. -/
def drawing (a : Application) : List Drawn :=
  (a.before.drawingOf a.caretStyle a.entry).toOption.getD []

/-- An application draws with looks of its entry. -/
theorem mem_looks_of_mem_drawing {a : Application} {d : Drawn} (hd : d ∈ a.drawing) :
    (d.key, d.look) ∈ a.entry.looks := by
  unfold drawing at hd
  cases h : a.before.drawingOf a.caretStyle a.entry with
  | error fault => rw [h] at hd; cases hd
  | ok drawing =>
    rw [h] at hd
    exact Masking.mem_looks_of_drawingOf h hd

theorem calls_eq {a : Application} {new : List (String × Call)}
    (h : a.after.decorations.desk.calls = new ++ a.before.decorations.desk.calls) :
    a.calls = new := by
  simp [calls, h]

/-- What an application leads to. -/
theorem spec (a : Application) {b : Board} (h : a.before.decorations.Shows b) :
    ∃ b', Masking.Leads a.before a.after b' a.after.passKeys ∧
      b.Evolves a.entry.looks (a.drawing.map Drawn.key) b' ∧
      ∀ d ∈ a.drawing, ∃ l, (d.key, l) ∈ b'.slots ∧ l.stretches = d.stretches := by
  have hspec := Masking.apply_spec a.entry a.caretStyle h
  unfold after drawing Step.after
  cases hdrawing : a.before.drawingOf a.caretStyle a.entry with
  | error fault =>
    rw [hdrawing] at hspec
    obtain ⟨m', b', happly, hleads, hevolves⟩ := hspec
    rw [happly]
    exact ⟨b', hleads.passKeys ▸ hleads, hevolves, by simp [Except.toOption]⟩
  | ok drawing =>
    rw [hdrawing] at hspec
    obtain ⟨answer, m', b', used, happly, _, hleads, happlied⟩ := hspec
    rw [happly]
    exact ⟨b', hleads.passKeys ▸ hleads, happlied.evolves, happlied.drawn⟩

end Application

namespace Masking

/-- The applications that doing what is to be done about entries makes, in order. -/
def applications (caretStyle : String) : List Order → Masking → List Application
  | [], _ => []
  | .apply x :: rest, m =>
    ⟨x, caretStyle, m⟩ ::
      match apply x.pattern x.mask caretStyle m with
      | .ok _ m' => applications caretStyle rest m'
      | .error _ _ => []
  | .skip :: rest, m => applications caretStyle rest (Step.after (report .patternSkipped) m)
  | .fail _ :: _, _ => []

variable {P : List Application → Masking → Prop} {caretStyle : String}

/-- What every application keeps and notices leave alone is kept. -/
theorem obey_induct {os : List Order}
    (happly : ∀ trace x m, .apply x ∈ os → P trace m →
      P (trace ++ [⟨x, caretStyle, m⟩]) (Application.after ⟨x, caretStyle, m⟩))
    (hnotice : ∀ trace m n, P trace m → P trace { m with notices := m.notices ++ [n] })
    {trace : List Application} {m : Masking} (h : P trace m) :
    P (trace ++ applications caretStyle os m) (Step.after (obey caretStyle os) m) := by
  -- the trace so far grows with every application, whether or not it fails
  induction os generalizing trace m with
  | nil =>
    rw [applications, List.append_nil]
    exact h
  | cons o rest ih =>
    replace ih := fun trace m h => @ih
      (fun trace x m hx => happly trace x m (List.mem_cons_of_mem _ hx)) trace m h
    cases o with
    | fail fault =>
      rw [applications, List.append_nil]
      exact h
    | skip =>
      have hrest := ih trace _ (hnotice trace m .patternSkipped h)
      have hskip : Step.after (obey caretStyle (.skip :: rest)) m =
          Step.after (obey caretStyle rest)
            { m with notices := m.notices ++ [.patternSkipped] } :=
        (Step.after_bind_of_ok (Step.modify_apply m _)).trans (Step.after_bind_pure _ _ _)
      rw [hskip]
      exact hrest
    | apply x =>
      have hfirst := happly trace x m List.mem_cons_self h
      cases happly : apply x.pattern x.mask caretStyle m with
      | error fault m' =>
        have hafter : Step.after (obey caretStyle (.apply x :: rest)) m = m' :=
          Step.after_bind_of_error happly
        rw [Application.after, Step.after_of_error happly] at hfirst
        rw [hafter, applications, happly]
        exact hfirst
      | ok answer m' =>
        have hafter : Step.after (obey caretStyle (.apply x :: rest)) m =
            Step.after (obey caretStyle rest) m' :=
          (Step.after_bind_of_ok happly).trans (Step.after_bind_pure _ _ _)
        rw [Application.after, Step.after_of_ok happly] at hfirst
        rw [hafter, applications, happly, List.append_cons]
        exact ih _ _ hfirst

/-- The end of an update removes what has not been used, where there is a host. -/
theorem after_update_of_ok {α : Type} {body : Step Masking α} {m n : Masking} {answer : α}
    (hbody : body { m with passKeys := some [] } = .ok answer n) :
    Step.after (update body) m =
      { (if n.editor?.isSome then
          Step.after (onDecorations (Decorations.evictAllExcept (n.passKeys.getD []))) n
        else n) with passKeys := m.passKeys } := by
  unfold update Step.after
  simp only
  rw [Step.bind_of_ok hbody, Step.bind_of_ok (Step.get_apply n)]
  cases n.editor?.isSome with
  | false => rfl
  | true =>
    simp only [if_true]
    cases hevict : onDecorations (Decorations.evictAllExcept (n.passKeys.getD [])) n with
    | ok evicted n' => rw [Step.bind_of_ok hevict]; rfl
    | error fault n' => rw [Step.bind_of_error hevict]

/-- What every application keeps is kept by updates, if removing keys does not break it. -/
theorem update_induct {os : List Order}
    (happly : ∀ trace x m, .apply x ∈ os → P trace m →
      P (trace ++ [⟨x, caretStyle, m⟩]) (Application.after ⟨x, caretStyle, m⟩))
    (hnotice : ∀ trace m n, P trace m → P trace { m with notices := m.notices ++ [n] })
    (hkeys : ∀ trace m keys, P trace m → P trace { m with passKeys := keys })
    (hevict : ∀ trace m keep, P trace m →
      P trace (Step.after (onDecorations (Decorations.evictAllExcept keep)) m))
    (trace : List Application) {m : Masking} (h : P trace m) :
    P (trace ++ applications caretStyle os { m with passKeys := some [] })
      (Step.after (update (obey caretStyle os)) m) := by
  -- the keys in use are noted before and after, and what is not used is removed in between
  have hbody := obey_induct happly hnotice (hkeys trace m (some []) h)
  cases hobey : obey caretStyle os { m with passKeys := some [] } with
  | error fault n =>
    rw [Step.after_of_error hobey] at hbody
    rw [Step.after_of_error (update_of_error hobey)]
    exact hkeys _ n _ hbody
  | ok answer n =>
    rw [Step.after_of_ok hobey] at hbody
    rw [after_update_of_ok hobey]
    split
    · exact hkeys _ _ _ (hevict _ n _ hbody)
    · exact hkeys _ n _ hbody

end Masking

end Conceal
