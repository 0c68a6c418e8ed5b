import Conceal.Proofs.Masking.Choice
import Conceal.Proofs.Masking.Contact
import Conceal.Proofs.Masking.Pass

/-!
Hosts that grant every call. While the host refuses nothing, its selections can be read and the
scopes have an answer for every line of its document, an update of the masking can fail only at an
entry that fails itself. Main statements: `completes_obey` and `completes_update`.
-/

namespace Conceal

/-! ## Desks -/

namespace Desk

/-- An editor refuses no call, and its selections can be read. -/
structure Grants (d : Desk) (name : String) : Prop where
  calls : ∀ e, d.editor? name = some e → ∀ call, e.canvas.refuses call = none
  selections : ∃ ends, d.ends name = .ok ends

variable {d d' : Desk} {host : Option String} {name : String}

/-- The selections of an editor are part of its face. -/
theorem Meets.ends_eq (h : Meets host d d') (n : String) : d'.ends n = d.ends n := by
  have hends := congrArg (fun f => (f.map Face.ends).getD (.ok [])) (h.face n)
  simpa [ends, Function.comp_def] using hends

/-- Contact with the host does not change what it grants. -/
theorem Meets.grants (h : Meets host d d') (hgrants : d.Grants name) : d'.Grants name where
  calls e' he' call := by
    have hrefuses := h.refuses name
    rw [he', Option.map_some, eq_comm, Option.map_eq_some_iff] at hrefuses
    obtain ⟨e, he, hsame⟩ := hrefuses
    rw [← hsame]
    exact hgrants.calls e he call
  selections := h.ends_eq name ▸ hgrants.selections

/-- An editor that grants every call is sent any call without failing. -/
theorem completes_send (name : String) (call : Call) :
    Step.Completes (Grants · name) (send name call) := by
  intro d hgrants
  unfold send
  cases he : d.editor? name with
  | none => exact ⟨(), d, rfl⟩
  | some e =>
    have hgranted : (e.receive call).2 = none := by
      have hcanvas : (e.canvas.receive call).2 = none := by
        unfold Canvas.receive
        rw [hgrants.calls e he call]
      unfold Editor.receive
      split
      next hrefused => rw [hrefused] at hcanvas; cases hcanvas
      · split <;> rfl
    dsimp only
    rw [hgranted]
    exact ⟨(), _, rfl⟩

/-- An editor that grants every call creates whatever it is asked for. -/
theorem completes_create (name : String) (look : Look) :
    Step.Completes (Grants · name) (create name look) :=
  Step.completes_get.bind (fun _ hgrants => hgrants) fun _ =>
    (completes_send name _).bind (fun d hgrants => (meets_send name _ d).grants hgrants) fun _ =>
      Step.completes_pure _

/-- Asking such an editor for selections does not fail, as its selections can be read. -/
theorem completes_selections (name : String) :
    Step.Completes (Grants · name) (selections name) := by
  rintro d ⟨-, given, hends⟩
  unfold selections
  cases he : d.editor? name with
  | none => exact ⟨[], d, rfl⟩
  | some e =>
    have hread : e.selections.1 = .ok given := by
      rw [ends, he] at hends
      exact hends
    dsimp only
    generalize e.selections = answer at hread
    obtain ⟨outcome, e'⟩ := answer
    obtain rfl : outcome = .ok given := hread
    exact ⟨given, _, rfl⟩

end Desk

/-! ## Decorations -/

namespace Decorations

/-- The host, if there is one, grants every call. -/
def Granted (d : Decorations) : Prop := ∀ host, d.host = some host → d.desk.Grants host

variable {d d' : Decorations}

/-- Working with a host does not change what it grants. -/
theorem Works.granted (h : Works d d') (hgranted : d.Granted) : d'.Granted := fun host hhost =>
  h.desk.grants (hgranted host (h.host.symm.trans hhost))

/-- A layer that is asked for is there or is created. -/
theorem completes_getOrCreate (key : String) (look : Look) :
    Step.Completes Granted (getOrCreate key look) := by
  intro d hgranted
  unfold getOrCreate
  rw [Step.bind_of_ok (Step.get_apply d)]
  cases hhost : d.host with
  | none => exact ⟨none, d, rfl⟩
  | some host =>
    cases d.handle? key with
    | some handle => exact ⟨some handle, d, rfl⟩
    | none =>
      obtain ⟨handle, desk, hcreate⟩ := Desk.completes_create host look d.desk (hgranted host hhost)
      dsimp only
      rw [onDesk, Step.bind_of_ok (Step.on_of_ok hcreate)]
      exact ⟨handle, _, rfl⟩

/-- Drawing does not fail on a host that grants every call. -/
theorem completes_render (key : String) (stretches : List Stretch) :
    Step.Completes Granted (render key stretches) := by
  intro d hgranted
  unfold render
  rw [Step.bind_of_ok (Step.get_apply d)]
  cases hhost : d.host with
  | none => exact ⟨(), d, rfl⟩
  | some host =>
    cases d.handle? key with
    | none => exact ⟨(), d, rfl⟩
    | some handle =>
      obtain ⟨_, desk, hsend⟩ := Desk.completes_send host (.set handle stretches) d.desk
        (hgranted host hhost)
      exact ⟨(), _, Step.on_of_ok hsend⟩

/-- Evicting a key does not fail on a host that grants every call. -/
theorem completes_evict (key : String) : Step.Completes Granted (evict key) := by
  intro d hgranted
  have hwithout : ({ d with handles := d.handles.filter (·.1 != key) } : Decorations).desk =
    d.desk := rfl
  unfold evict
  rw [Step.bind_of_ok (Step.get_apply d), Step.bind_of_ok (Step.set_apply d _)]
  generalize { d with handles := d.handles.filter (·.1 != key) } = without at hwithout ⊢
  cases hhost : d.host with
  | none => exact ⟨(), _, rfl⟩
  | some host =>
    cases d.handle? key with
    | none => exact ⟨(), _, rfl⟩
    | some handle =>
      have hgrants := hgranted host hhost
      rw [← hwithout] at hgrants
      obtain ⟨_, desk, hset⟩ := Desk.completes_send host (.set handle []) without.desk hgrants
      have hmeets := Desk.meets_send host (.set handle []) without.desk
      rw [Step.after_of_ok hset] at hmeets
      obtain ⟨_, desk', hdispose⟩ := Desk.completes_send host (.dispose handle) desk
        (hmeets.grants hgrants)
      dsimp only
      rw [onDesk, onDesk, Step.bind_of_ok (Step.on_of_ok hset)]
      exact ⟨(), _, Step.on_of_ok hdispose⟩

/-- Nor does evicting several keys. -/
theorem completes_evictEach (keys : List String) : Step.Completes Granted (evictEach keys) := by
  induction keys with
  | nil => exact Step.completes_pure _
  | cons key rest ih =>
    exact (completes_evict key).bind (fun d hd => (works_evict key d).granted hd) fun _ => ih

theorem completes_evictAllExcept (keep : List String) :
    Step.Completes Granted (evictAllExcept keep) :=
  Step.completes_get.bind (fun _ hd => hd) fun _ =>
    (completes_evictEach _).bind (fun d hd => (works_evictEach _ d).granted hd) fun _ =>
      Step.completes_pure _

theorem completes_clear : Step.Completes Granted clear :=
  Step.completes_get.bind (fun _ hd => hd) fun _ => completes_evictEach _

end Decorations

/-! ## Masking -/

namespace Masking

/-- The host grants every call, and the scopes have an answer for every line of its document. -/
structure Granted (m : Masking) : Prop where
  decorations : m.decorations.Granted
  scopes : ∀ host document, m.editor? = some host →
    m.decorations.desk.document? host = some document →
    ∀ line : Nat, line < document.lineCount → ∃ answer, m.scopes.tokens? line = .ok answer

variable {m m' : Masking}

theorem Works.granted (h : Works m m') (hgranted : m.Granted) : m'.Granted where
  decorations := h.decorations.granted hgranted.decorations
  scopes host document hhost hdocument line hline := by
    rw [h.scopes]
    rw [h.decorations.desk.document?_eq] at hdocument
    exact hgranted.scopes host document (h.decorations.host.symm.trans hhost) hdocument line hline

theorem completes_onDecorations {α : Type} {act : Step Decorations α}
    (h : Step.Completes Decorations.Granted act) :
    Step.Completes Granted (onDecorations act) :=
  Step.completes_on h (fun _ hm => hm.decorations) _

/-- Decisions without a failure are carried out. -/
theorem completes_carryOut (base : String) {ds : List Decision} (h : failure? ds = none)
    (found : List (String × List Stretch)) : Step.Completes Granted (carryOut base ds found) := by
  induction ds generalizing found with
  | nil => exact Step.completes_pure _
  | cons d rest ih =>
    cases d with
    | notice n =>
      exact (Step.completes_modify _).bind (fun m hm => (works_report n m).granted hm) fun _ =>
        ih h found
    | fail fault => cases h
    | place p =>
      have hrest := ih h (addStretch found (keyOf base p) p.stretch)
      simp only [carryOut]
      cases (found.map (·.1)).contains (keyOf base p) with
      | true => exact hrest
      | false =>
        cases p.own with
        | none => exact hrest
        | some own =>
          refine (completes_onDecorations (Decorations.completes_getOrCreate _ _)).bind ?_ fun _ =>
            hrest
          exact fun m hm => (works_onDecorations (Decorations.works_getOrCreate _ _ _)).granted hm

theorem completes_renderEach (found : List (String × List Stretch)) :
    Step.Completes Granted (renderEach found) := by
  induction found with
  | nil => exact Step.completes_pure _
  | cons d rest ih =>
    refine (completes_onDecorations (Decorations.completes_render _ _)).bind ?_ fun _ => ih
    exact fun m hm => (works_onDecorations (Decorations.works_render _ _ _)).granted hm

theorem completes_evictAllExcept (keep : List String) :
    Step.Completes Granted (onDecorations (Decorations.evictAllExcept keep)) :=
  completes_onDecorations (Decorations.completes_evictAllExcept keep)

/-- Drawing what was decided ends, if no decision is a failure. -/
theorem completes_draw (base : String) {decided : List Decision} (h : failure? decided = none) :
    Step.Completes Granted (draw base decided) := by
  unfold draw
  refine (completes_carryOut base h _).bind (fun m hm => (works_carryOut _ _ _ m).granted hm) ?_
  intro found
  refine (completes_renderEach _).bind (fun m hm => (works_renderEach _ m).granted hm) ?_
  intro _
  refine Step.Completes.bind (fun m _ => ⟨_, _, Step.modifyGet_apply m _⟩)
    (fun m hm => (works_noteKeys _ m).granted hm) fun keep => ?_
  exact (completes_evictAllExcept keep).bind (fun m hm => (works_evictAllExcept keep m).granted hm)
    fun _ => Step.completes_pure _

/-- Where the scopes have an answer for every line, nothing that is decided fails. -/
theorem failure?_decided (x : Entry) {v : Scene}
    (h : ∀ line : Nat, line < v.document.lineCount → ∃ answer, v.scopes.tokens? line = .ok answer) :
    failure? (x.decided v) = none := by
  cases hfailure : failure? (x.decided v) with
  | none => rfl
  | some fault =>
    obtain ⟨-, m, -, -, ⟨-, -, hfault⟩, -⟩ := x.failsAt_of_failure? hfailure
    obtain ⟨answer, hanswer⟩ := h _ (v.document.lineAt_lt m.start)
    rw [hanswer] at hfault
    cases hfault

/-- An entry is applied to the end, whatever the text, unless a match cannot be decided. -/
theorem completes_apply (x : Entry) (caretStyle : String) :
    Step.Completes Granted (apply x.pattern x.mask caretStyle) := by
  intro m hm
  unfold apply
  rw [Step.bind_of_ok (Step.get_apply m)]
  cases hhost : m.editor? with
  | none => exact ⟨0, m, rfl⟩
  | some host =>
    dsimp only
    obtain ⟨m₁, hok₁, hworks₁⟩ : ∃ m₁, onDesk (Desk.snapshot host) m =
        .ok (m.decorations.desk.document? host) m₁ ∧ Works m m₁ := by
      have hworks := works_onDesk hhost (Desk.meets_snapshot host)
      have hok := onDesk_of_ok (Desk.snapshot_eq host m.decorations.desk)
      rw [Step.after_of_ok hok] at hworks
      exact ⟨_, hok, hworks⟩
    rw [Step.bind_of_ok hok₁]
    cases hdocument : m.decorations.desk.document? host with
    | none => exact ⟨0, m₁, rfl⟩
    | some document =>
      obtain ⟨_, m₂, hok₂⟩ := completes_onDecorations
        (Decorations.completes_getOrCreate x.pattern.source x.mask.baseLook) m₁ (hworks₁.granted hm)
      have hworks₂ : Works m₁ (Step.after
          (onDecorations (Decorations.getOrCreate x.pattern.source x.mask.baseLook)) m₁) :=
        works_onDecorations (Decorations.works_getOrCreate _ _ _)
      rw [Step.after_of_ok hok₂] at hworks₂
      -- the host is still the same when its selections are asked for
      have hhost₂ : m₂.editor? = some host :=
        (hworks₁.trans hworks₂).decorations.host.trans hhost
      have hm₂ := (hworks₁.trans hworks₂).granted hm
      obtain ⟨ends, desk, hselections⟩ := Desk.completes_selections host m₂.decorations.desk
        (hm₂.decorations host hhost₂)
      obtain ⟨m₃, hok₃⟩ : ∃ m₃, onDesk (Desk.selections host) m₂ = .ok ends m₃ :=
        ⟨_, onDesk_of_ok hselections⟩
      have hworks₃ := works_onDesk hhost₂ (Desk.meets_selections host)
      rw [Step.after_of_ok hok₃] at hworks₃
      dsimp only
      rw [Step.bind_of_ok hok₂, Step.bind_of_ok hok₃, Step.bind_of_ok (Step.get_apply m₃)]
      refine completes_draw _ ?_ m₃ (hworks₃.granted hm₂)
      refine failure?_decided x (v := ⟨document, ends, m₃.scopes, caretStyle⟩) fun line hline => ?_
      have hscopes : m₃.scopes = m.scopes := ((hworks₁.trans hworks₂).trans hworks₃).scopes
      rw [hscopes]
      exact hm.scopes host document hhost hdocument line hline

/-- Entries that do not fail are done with. -/
theorem completes_obey (caretStyle : String) {os : List Order} (h : ∀ fault, .fail fault ∉ os) :
    Step.Completes Granted (obey caretStyle os) := by
  induction os with
  | nil => exact Step.completes_pure _
  | cons o rest ih =>
    have hrest := ih fun fault hmem => h fault (List.mem_cons_of_mem _ hmem)
    have hanswer (applied : Nat) : Step.Completes Granted (do
        return applied + (← obey caretStyle rest)) := fun m hm => by
      obtain ⟨answer, m', hok⟩ := hrest m hm
      exact ⟨_, m', Step.bind_of_ok hok⟩
    cases o with
    | fail fault => exact absurd List.mem_cons_self (h fault)
    | skip =>
      exact (Step.completes_modify _).bind (fun m hm => (works_report _ m).granted hm) fun _ =>
        hanswer 0
    | apply x =>
      exact (completes_apply x caretStyle).bind (fun m hm => (works_apply _ _ _ m).granted hm)
        fun _ => hanswer 1

/-- An update does not fail when what it consists of does not. -/
theorem completes_update {α : Type} {body : Step Masking α} (h : Step.Completes Granted body)
    (hworks : Step.Obeys Works body) : Step.Completes Granted (update body) := by
  have hwhole : Step.Completes Granted (do
      let answer ← body
      let m ← get
      if m.editor?.isSome then
        let _ ← onDecorations (Decorations.evictAllExcept (m.passKeys.getD []))
      return answer) := by
    refine h.bind (fun m hm => (hworks m).granted hm) fun answer => ?_
    refine Step.completes_get.bind (fun _ hm => hm) fun m => ?_
    split
    · exact (completes_evictAllExcept _).bind
        (fun m hm => (works_evictAllExcept _ m).granted hm) fun _ => Step.completes_pure _
    · exact Step.completes_pure _
  intro m hm
  obtain ⟨answer, n, hok⟩ := hwhole { m with passKeys := some [] } ⟨hm.decorations, hm.scopes⟩
  unfold update
  dsimp only
  rw [hok]
  exact ⟨answer, _, rfl⟩

end Masking

end Conceal
