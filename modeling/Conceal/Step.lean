import Conceal.Fault

/-!
Steps: actions on a state that can fail. What a step has done before it fails stays done.
-/

namespace Conceal

/-- An action on a state, with an answer or a fault; either way there is a state after it. -/
abbrev Step (σ α : Type) := EStateM Fault σ α

namespace Step

/-- Acts on a part of a state. -/
def on {σ τ α : Type} (get : σ → τ) (set : σ → τ → σ) (act : Step τ α) : Step σ α := fun s =>
  match act (get s) with
  | .ok a t => .ok a (set s t)
  | .error f t => .error f (set s t)

/-- The state after a step, whether or not it failed. -/
def after {σ α : Type} (act : Step σ α) (s : σ) : σ :=
  match act s with
  | .ok _ s => s
  | .error _ s => s

/-- The outcome of a step. -/
def outcome {σ α : Type} (act : Step σ α) (s : σ) : Except Fault α :=
  match act s with
  | .ok a _ => .ok a
  | .error f _ => .error f

/-- An outcome that is known already. -/
def ofExcept {σ α : Type} : Except Fault α → Step σ α
  | .ok a => pure a
  | .error f => throw f

/-- Acts only where there is something to act on. -/
def forSome {σ α : Type} (x : Option α) (act : α → Step σ Unit) : Step σ Unit :=
  match x with
  | some a => act a
  | none => pure ()

/-! ## Running steps -/

section run

variable {σ τ α β : Type} (s : σ)

@[simp] theorem pure_apply (a : α) : (pure a : Step σ α) s = .ok a s := rfl

@[simp] theorem throw_apply (f : Fault) : (throw f : Step σ α) s = .error f s := rfl

@[simp] theorem get_apply : (get : Step σ σ) s = .ok s s := rfl

@[simp] theorem set_apply (t : σ) : (set t : Step σ PUnit) s = .ok () t := rfl

@[simp] theorem modify_apply (f : σ → σ) : (modify f : Step σ PUnit) s = .ok () (f s) := rfl

@[simp] theorem modifyGet_apply (f : σ → α × σ) :
    (modifyGet f : Step σ α) s = .ok (f s).1 (f s).2 := rfl

/-- After an operation with a result the second one goes on from the state that it leaves. -/
theorem bind_of_ok {x : Step σ α} {f : α → Step σ β} {a : α} {s s' : σ} (h : x s = .ok a s') :
    (x >>= f) s = f a s' := by
  show EStateM.bind x f s = _
  rw [EStateM.bind, h]

/-- A failure skips what comes after it. -/
theorem bind_of_error {x : Step σ α} {f : α → Step σ β} {e : Fault} {s s' : σ}
    (h : x s = .error e s') : (x >>= f) s = .error e s' := by
  show EStateM.bind x f s = _
  rw [EStateM.bind, h]

/-- Of two steps in a row none has failed if there is a result. -/
theorem exists_of_bind_eq_ok {x : Step σ α} {f : α → Step σ β} {b : β} {s s'' : σ}
    (h : (x >>= f) s = .ok b s'') : ∃ a s', x s = .ok a s' ∧ f a s' = .ok b s'' := by
  cases hx : x s with
  | ok a s' =>
    rw [bind_of_ok hx] at h
    exact ⟨a, s', rfl, h⟩
  | error e s' =>
    rw [bind_of_error hx] at h
    cases h

theorem on_of_ok {get : σ → τ} {set : σ → τ → σ} {act : Step τ α} {a : α} {s : σ} {t : τ}
    (h : act (get s) = .ok a t) : on get set act s = .ok a (set s t) := by
  rw [on, h]

theorem on_of_error {get : σ → τ} {set : σ → τ → σ} {act : Step τ α} {e : Fault} {s : σ} {t : τ}
    (h : act (get s) = .error e t) : on get set act s = .error e (set s t) := by
  rw [on, h]

theorem after_of_ok {x : Step σ α} {a : α} {s s' : σ} (h : x s = .ok a s') : after x s = s' := by
  rw [after, h]

theorem after_of_error {x : Step σ α} {e : Fault} {s s' : σ} (h : x s = .error e s') :
    after x s = s' := by
  rw [after, h]

/-- The state after two operations is that after the second one. -/
theorem after_bind_of_ok {x : Step σ α} {f : α → Step σ β} {a : α} {s s' : σ}
    (h : x s = .ok a s') : after (x >>= f) s = after (f a) s' := by
  rw [after, bind_of_ok h, after]

/-- The state after a failure is the one that it leaves, whatever would have come next. -/
theorem after_bind_of_error {x : Step σ α} {f : α → Step σ β} {e : Fault} {s s' : σ}
    (h : x s = .error e s') : after (x >>= f) s = s' :=
  after_of_error (bind_of_error h)

/-- An outcome and the state afterwards are the whole of an operation. -/
theorem eq_of_outcome {x : Step σ α} {a : α} {s : σ} (h : outcome x s = .ok a) :
    x s = .ok a (after x s) := by
  cases hx : x s with
  | ok a' s' =>
    rw [outcome, hx] at h
    rw [after_of_ok hx, Except.ok.inj h]
  | error e s' => rw [outcome, hx] at h; cases h

theorem eq_of_outcome_error {x : Step σ α} {e : Fault} {s : σ} (h : outcome x s = .error e) :
    x s = .error e (after x s) := by
  cases hx : x s with
  | ok a s' => rw [outcome, hx] at h; cases h
  | error e' s' =>
    rw [outcome, hx] at h
    rw [after_of_error hx, Except.error.inj h]

/-- An operation on a part of the state changes that part and nothing else. -/
theorem after_on (get : σ → τ) (set : σ → τ → σ) (act : Step τ α) (s : σ) :
    after (on get set act) s = set s (after act (get s)) := by
  unfold after on
  cases act (get s) <;> rfl

/-- A step that only changes the answer of another. -/
theorem after_bind_pure (x : Step σ α) (f : α → β) (s : σ) :
    after (x >>= fun a => pure (f a)) s = after x s := by
  cases h : x s with
  | ok a s' => rw [after_bind_of_ok h, after_of_ok h]; rfl
  | error e s' => rw [after_bind_of_error h, after_of_error h]

end run

/-! ## What holds of a step in any case -/

/-- A step leads from every state to one in a relation to it, whether or not it fails. -/
def Obeys {σ α : Type} (R : σ → σ → Prop) (act : Step σ α) : Prop := ∀ s, R s (after act s)

section obeys

variable {σ α β : Type} {R : σ → σ → Prop}

theorem obeys_modify {f : σ → σ} (h : ∀ s, R s (f s)) : Obeys R (modify f : Step σ PUnit) := h

section refl

variable [Std.Refl R]

theorem obeys_pure (a : α) : Obeys R (pure a : Step σ α) := fun s => Std.Refl.refl s

theorem obeys_throw (f : Fault) : Obeys R (throw f : Step σ α) := fun s => Std.Refl.refl s

theorem obeys_get : Obeys R (get : Step σ σ) := fun s => Std.Refl.refl s

theorem obeys_ofExcept (e : Except Fault α) : Obeys R (ofExcept e : Step σ α) := by
  cases e with
  | ok a => exact obeys_pure a
  | error f => exact obeys_throw f

theorem obeys_forSome {x : Option α} {act : α → Step σ Unit} (h : ∀ a, Obeys R (act a)) :
    Obeys R (forSome x act) := by
  cases x with
  | none => exact obeys_pure ()
  | some a => exact h a

/-- The second of two steps leads on from the state after the first one, if it runs at all. -/
theorem rel_after_bind {x : Step σ α} {f : α → Step σ β} {s : σ}
    (hf : ∀ a s', x s = .ok a s' → R s' (after (f a) s')) :
    R (after x s) (after (x >>= f) s) := by
  cases h : x s with
  | ok a s' =>
    rw [after_of_ok h, after_bind_of_ok h]
    exact hf a s' h
  | error e s' =>
    rw [after_of_error h, after_bind_of_error h]
    exact Std.Refl.refl s'

end refl

variable [Trans R R R]

/-- Two steps in a row from one state: the second one runs only if the first does not fail. -/
theorem after_bind_rel {x : Step σ α} {f : α → Step σ β} {s : σ} (hx : R s (after x s))
    (hf : ∀ a s', x s = .ok a s' → R s' (after (f a) s')) : R s (after (x >>= f) s) := by
  cases h : x s with
  | ok a s' =>
    rw [after_of_ok h] at hx
    rw [after_bind_of_ok h]
    exact Trans.trans hx (hf a s' h)
  | error e s' =>
    rw [after_of_error h] at hx
    rw [after_bind_of_error h]
    exact hx

/-- What two operations obey, one after the other, both of them together obey. -/
theorem Obeys.bind {x : Step σ α} {f : α → Step σ β} (hx : Obeys R x) (hf : ∀ a, Obeys R (f a)) :
    Obeys R (x >>= f) := fun s =>
  after_bind_rel (hx s) fun a s' _ => hf a s'

/-- What every single operation obeys, all of them in a row obey. -/
theorem obeys_forM [Std.Refl R] {xs : List α} {act : α → Step σ PUnit}
    (h : ∀ a, Obeys R (act a)) : Obeys R (xs.forM act) := by
  induction xs with
  | nil => exact obeys_pure ()
  | cons x rest ih =>
    show Obeys R (act x >>= fun _ => rest.forM act)
    exact (h x).bind fun _ => ih

end obeys

/-! ## Steps that do not fail -/

/-- A step does not fail from any state with a property. -/
def Completes {σ α : Type} (P : σ → Prop) (act : Step σ α) : Prop :=
  ∀ s, P s → ∃ a s', act s = .ok a s'

section completes

variable {σ τ α β : Type} {P : σ → Prop}

theorem completes_pure (a : α) : Completes P (pure a : Step σ α) := fun s _ => ⟨a, s, rfl⟩

theorem completes_get : Completes P (get : Step σ σ) := fun s _ => ⟨s, s, rfl⟩

theorem completes_modify (f : σ → σ) : Completes P (modify f : Step σ PUnit) := fun s _ =>
  ⟨(), f s, rfl⟩

/-- An operation on a part ends if the part allows it. -/
theorem completes_on {Q : τ → Prop} {get : σ → τ} {act : Step τ α} (h : Completes Q act)
    (hQ : ∀ s, P s → Q (get s)) (set : σ → τ → σ) : Completes P (on get set act) := by
  intro s hs
  obtain ⟨a, t, hok⟩ := h (get s) (hQ s hs)
  exact ⟨a, _, on_of_ok hok⟩

/-- Of two steps in a row none fails, if the first one leaves the property for the second one. -/
theorem Completes.bind {x : Step σ α} {f : α → Step σ β} (hx : Completes P x)
    (hkeeps : ∀ s, P s → P (after x s)) (hf : ∀ a, Completes P (f a)) :
    Completes P (x >>= f) := by
  intro s hs
  obtain ⟨a, s', hok⟩ := hx s hs
  have hs' := hkeeps s hs
  rw [after_of_ok hok] at hs'
  obtain ⟨b, s'', hok'⟩ := hf a s' hs'
  exact ⟨b, s'', (bind_of_ok hok).trans hok'⟩

end completes

/-! ## Steps that do the same -/

section agrees

variable {σ τ α β : Type} {E : σ → σ → Prop}

/-- Two outcomes are the same, and the states after them are related. -/
inductive Alike (E : σ → σ → Prop) :
    EStateM.Result Fault σ α → EStateM.Result Fault σ α → Prop
  | ok (a : α) {s t : σ} (h : E s t) : Alike E (.ok a s) (.ok a t)
  | error (f : Fault) {s t : σ} (h : E s t) : Alike E (.error f s) (.error f t)

/-- Two steps do the same from related states. -/
def Agrees (E : σ → σ → Prop) (x y : Step σ α) : Prop := ∀ s t, E s t → Alike E (x s) (y t)

/-- Alike outcomes leave states that are alike. -/
theorem Alike.after {x y : Step σ α} {s t : σ} (h : Alike E (x s) (y t)) :
    E (after x s) (after y t) := by
  unfold Step.after
  generalize x s = r at h
  generalize y t = r' at h
  cases h with
  | ok a h => exact h
  | error f h => exact h

/-- Alike first operations may be followed by second ones that agree. -/
theorem Alike.bind {x y : Step σ α} {f g : α → Step σ β} {s t : σ} (h : Alike E (x s) (y t))
    (hf : ∀ a s', x s = .ok a s' → Agrees E (f a) (g a)) :
    Alike E ((x >>= f) s) ((y >>= g) t) := by
  generalize hx : x s = r at h
  generalize hy : y t = r' at h
  cases h with
  | ok a h =>
    rw [bind_of_ok hx, bind_of_ok hy]
    exact hf a _ hx _ _ h
  | error e h =>
    rw [bind_of_error hx, bind_of_error hy]
    exact .error e h

theorem agrees_pure (a : α) : Agrees E (pure a : Step σ α) (pure a) := fun _ _ h => .ok a h

theorem agrees_throw (f : Fault) : Agrees E (throw f : Step σ α) (throw f) := fun _ _ h =>
  .error f h

theorem agrees_modify {f g : σ → σ} (h : ∀ s t, E s t → E (f s) (g t)) :
    Agrees E (modify f : Step σ PUnit) (modify g) := fun s t hst => .ok () (h s t hst)

theorem Agrees.bind {x y : Step σ α} {f g : α → Step σ β} (h : Agrees E x y)
    (hf : ∀ a, Agrees E (f a) (g a)) : Agrees E (x >>= f) (y >>= g) := fun s t hst =>
  (h s t hst).bind fun a _ _ => hf a

/-- Two steps that look at the state first. -/
theorem agrees_get_bind {f g : σ → Step σ α} (h : ∀ s t, E s t → Alike E (f s s) (g t t)) :
    Agrees E (get >>= f) (get >>= g) := fun s t hst => h s t hst

theorem agrees_refl (x : Step σ α) : Agrees Eq x x := by
  rintro s t rfl
  cases x s with
  | ok a s' => exact .ok a rfl
  | error f s' => exact .error f rfl

/-- What is done to parts that are related when the states are. -/
theorem agrees_on {F : τ → τ → Prop} {get : σ → τ} {set : σ → τ → σ} {x y : Step τ α}
    (h : Agrees F x y) (hget : ∀ s t, E s t → F (get s) (get t))
    (hset : ∀ s t part part', E s t → F part part' → E (set s part) (set t part')) :
    Agrees E (on get set x) (on get set y) := by
  intro s t hst
  have hparts := h _ _ (hget s t hst)
  unfold on
  generalize x (get s) = r at hparts
  generalize y (get t) = r' at hparts
  cases hparts with
  | ok a hpart => exact .ok a (hset s t _ _ hst hpart)
  | error f hpart => exact .error f (hset s t _ _ hst hpart)

end agrees

end Step

end Conceal
