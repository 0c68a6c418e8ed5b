import Conceal.Proofs.Decoration.Shows

/-!
Decorations over a long time, while the host changes and editors go away. Only the host bears
decorations, apart from editors that are gone; either the decorations show a board, or there are
none and the host is gone. What operations on the board, a new host and the loss of an editor leave
of that is said here once, for any property that is kept of the board beside.
-/

namespace Conceal

/-- Editors may have another content or be gone, but have the same canvas, and nobody comes back. -/
structure Desk.Calm (d d' : Desk) : Prop where
  calls : d'.calls = d.calls
  canvas : ∀ name, (d'.editor? name).map Editor.canvas = (d.editor? name).map Editor.canvas
  alive : ∀ name, d'.isAlive name = true → d.isAlive name = true

namespace Desk.Calm

theorem refl (d : Desk) : Calm d d := ⟨rfl, fun _ => rfl, fun _ => id⟩

/-- Calm operations, one after the other, are calm. -/
theorem trans {d d' d'' : Desk} (h : Calm d d') (h' : Calm d' d'') : Calm d d'' :=
  ⟨h'.calls.trans h.calls, fun name => (h'.canvas name).trans (h.canvas name),
    fun name => h.alive name ∘ h'.alive name⟩

/-- A change of an editor that leaves its canvas alone and does not bring it back. -/
theorem of_change (d : Desk) (name : String) {f : Editor → Editor}
    (hcanvas : ∀ e, (f e).canvas = e.canvas) (halive : ∀ e, (f e).alive → e.alive) :
    Calm d (d.change name f) where
  calls := rfl
  canvas n := by
    rw [editor?_change]
    split
    · rw [Option.map_map]
      exact congrArg (Option.map · _) (funext hcanvas)
    · rfl
  alive n := by
    rw [isAlive, isAlive, editor?_change]
    split
    · cases d.editor? n with
      | none => exact id
      | some e => exact halive e
    · exact id

/-- An editor after a calm operation was there before, with the same canvas, and alive if it still
is. -/
theorem editor? {d d' : Desk} (h : Calm d d') {name : String} {e' : Editor}
    (he' : d'.editor? name = some e') :
    ∃ e, d.editor? name = some e ∧ e'.canvas = e.canvas ∧ (e'.alive → e.alive) := by
  have hcanvas := h.canvas name
  have halive := h.alive name
  simp only [isAlive, he', Option.map_some, Option.any_some] at hcanvas halive
  cases he : d.editor? name with
  | none => rw [he] at hcanvas; cases hcanvas
  | some e =>
    rw [he] at hcanvas halive
    exact ⟨e, rfl, Option.some.inj hcanvas, halive⟩

/-- Calm operations leave the layers and the calls. -/
theorem holds {d d' : Desk} (h : Calm d d') {name : String} {made : Nat} {layers : List Layer}
    {calls : List (String × Call)} (hholds : d.Holds name made layers calls) :
    d'.Holds name made layers calls := by
  obtain ⟨e, he, hw, hmade, hlayers⟩ := hholds.canvas
  have hcanvas := h.canvas name
  rw [he] at hcanvas
  cases he' : d'.editor? name with
  | none => rw [he'] at hcanvas; cases hcanvas
  | some e' =>
    rw [he'] at hcanvas
    have : e'.canvas = e.canvas := Option.some.inj hcanvas
    exact ⟨h.calls.trans hholds.calls, e', he', by rw [this]; exact ⟨hw, hmade, hlayers⟩⟩

end Desk.Calm

namespace Decorations

/-- All canvases grant every call and have made the handles that were ever drawn with, an editor
beside the host has no layers unless it is gone, and the decorations show a board with a property,
unless there are none because the host is gone. -/
structure Tidy (drawn : String → Nat → Prop) (P : Board → Prop) (d : Decorations) : Prop where
  canvas : ∀ name e, d.desk.editor? name = some e → e.canvas.Willing ∧
    (∀ handle, drawn name handle → handle ≤ e.canvas.made) ∧
    (e.alive → d.host ≠ some name → e.canvas.layers = [])
  board : (∃ b, d.Shows b ∧ P b) ∨
    d.handles = [] ∧ ∀ name, d.host = some name → d.desk.isAlive name = false

variable {drawn : String → Nat → Prop} {P P' : Board → Prop} {d d' : Decorations}

/-- With a host that is there, the decorations show a board. -/
theorem Tidy.shows (h : d.Tidy drawn P) {name : String} (hhost : d.host = some name)
    (halive : d.desk.isAlive name = true) : ∃ b, d.Shows b ∧ P b ∧ b.host = name := by
  rcases h.board with ⟨b, hb, hP⟩ | ⟨_, hgone⟩
  · exact ⟨b, hb, hP, Option.some.inj (hb.host.symm.trans hhost)⟩
  · rw [hgone name hhost] at halive
    cases halive

/-- What was ever drawn on the host has a handle that the board has made. -/
theorem Tidy.bound (h : d.Tidy drawn P) {b : Board} (hb : d.Shows b) (handle : Nat)
    (hdrawn : drawn b.host handle) : handle ≤ b.made := by
  obtain ⟨e, he, _, hmade, _⟩ := hb.holds.canvas
  rw [← hmade]
  exact (h.canvas _ e he).2.1 handle hdrawn

/-- Work on the board. -/
theorem Tidy.move {drawn' : String → Nat → Prop} (h : d.Tidy drawn P) {b b' : Board}
    (hb : d.Shows b) (hb' : d'.Shows b') (hhost : b'.host = b.host) (hmade : b.made ≤ b'.made)
    (hredrawn : Desk.Redrawn b.host d.desk d'.desk)
    (hdrawn : ∀ name handle, drawn' name handle →
      drawn name handle ∨ name = b.host ∧ handle ≤ b'.made) (hP : P' b') :
    d'.Tidy drawn' P' where
  canvas name e he := by
    -- the host has made what is drawn by now; all other editors are as they were
    by_cases hname : name = b.host
    · subst hname
      obtain ⟨e', he', hw, hmade', _⟩ := hb'.holds.canvas
      rw [hhost, he] at he'
      obtain rfl := Option.some.inj he'
      refine ⟨hw, fun handle hhandle => ?_, fun _ hne => absurd (hhost ▸ hb'.host) hne⟩
      rw [hmade']
      rcases hdrawn _ _ hhandle with hold | ⟨_, hle⟩
      · exact Nat.le_trans (h.bound hb handle hold) hmade
      · exact hle
    · rw [hredrawn.others name hname] at he
      obtain ⟨hw, hbound, hblank⟩ := h.canvas name e he
      refine ⟨hw, fun handle hhandle => ?_, fun halive _ => hblank halive ?_⟩
      · rcases hdrawn _ _ hhandle with hold | ⟨heq, _⟩
        · exact hbound handle hold
        · exact absurd heq hname
      · rw [hb.host]
        exact fun heq => hname (Option.some.inj heq).symm
  board := Or.inl ⟨b', hb', hP⟩

/-- What happens to editors beside their canvases. -/
theorem Tidy.calm (h : d.Tidy drawn P) {desk : Desk} (hcalm : d.desk.Calm desk) :
    { d with desk }.Tidy drawn P where
  canvas name e he := by
    obtain ⟨e₀, he₀, hcanvas, halive⟩ := hcalm.editor? he
    obtain ⟨hw, hbound, hblank⟩ := h.canvas name e₀ he₀
    rw [hcanvas]
    exact ⟨hw, hbound, fun ha => hblank (halive ha)⟩
  board := by
    rcases h.board with ⟨b, hb, hP⟩ | ⟨hnone, hgone⟩
    · exact Or.inl ⟨b, ⟨hb.host, hb.handles, hcalm.holds hb.holds, hb.sound⟩, hP⟩
    · refine Or.inr ⟨hnone, fun name hname => ?_⟩
      rw [← Bool.not_eq_true]
      intro halive
      have := hcalm.alive name halive
      rw [hgone name hname] at this
      cases this

/-- The host is gone and the decorations are forgotten. -/
theorem Tidy.forgetAll (h : d.Tidy drawn P)
    (hgone : ∀ name, d.host = some name → d.desk.isAlive name = false) :
    d.forgetAll.Tidy drawn P' :=
  ⟨h.canvas, Or.inr ⟨rfl, hgone⟩⟩

/-- All keys are removed. -/
theorem Tidy.clear (h : d.Tidy drawn P) (hempty : ∀ b : Board, b.slots = [] → P' b) :
    ∃ d', clear d = .ok () d' ∧ d'.Tidy drawn P' ∧ d'.host = d.host ∧ d'.handles = [] ∧
      (∀ name, (d'.desk.editor? name).map Editor.alive = (d.desk.editor? name).map Editor.alive) ∧
      ∀ name e, d'.desk.editor? name = some e → e.alive → e.canvas.layers = [] := by
  rcases h.board with ⟨b, hb, _⟩ | ⟨hnone, hgone⟩
  · obtain ⟨d', hclear, hb', hredrawn⟩ := hb.clear
    have hnone : (b.eraseAll b.keys).slots = [] := by
      rw [List.eq_nil_iff_forall_not_mem]
      intro s hs
      obtain ⟨hmem, hkey⟩ := Board.mem_slots_eraseAll.mp hs
      exact hkey (Board.mem_keys.mpr ⟨s.2, hmem⟩)
    have hevolves := hb.sound.evolves_eraseAll b.keys
    have hhost : d'.host = d.host := by rw [hb'.host, hb.host, hevolves.host]
    have htidy : d'.Tidy drawn P' :=
      h.move hb hb' hevolves.host hevolves.made (hevolves.host ▸ hredrawn)
        (fun _ _ => Or.inl) (hempty _ hnone)
    refine ⟨d', hclear, htidy, hhost, ?_, fun name => ?_, fun name e he halive => ?_⟩
    · rw [hb'.handles, Board.handles, hnone]
      rfl
    · exact (hevolves.host ▸ hredrawn : Desk.Redrawn b.host _ _).alive_eq name
    · -- the host's layers are those of the board, which is empty now
      by_cases hname : d'.host = some name
      · obtain ⟨e', he', _, _, hlayers⟩ := hb'.holds.canvas
        rw [hb'.host] at hname
        rw [Option.some.inj hname, he] at he'
        obtain rfl := Option.some.inj he'
        rw [hlayers, hnone]
        rfl
      · exact (htidy.canvas name e he).2.2 halive hname
  · -- no board, and so no keys to clear
    have hclear : Decorations.clear d = .ok () d := by
      unfold Decorations.clear
      rw [Step.bind_of_ok (Step.get_apply d), keys, hnone]
      rfl
    refine ⟨d, hclear, ⟨h.canvas, Or.inr ⟨hnone, hgone⟩⟩, rfl, hnone, fun _ => rfl,
      fun name e he halive => ?_⟩
    refine (h.canvas name e he).2.2 halive fun hname => ?_
    have := hgone name hname
    rw [Desk.isAlive, he] at this
    rw [Option.any_some, halive] at this
    cases this

/-- Another host; the decorations on the old one are removed. -/
theorem Tidy.setHost (h : d.Tidy drawn P) (hempty : ∀ b : Board, b.slots = [] → P' b)
    (host : Option String) (hne : d.host ≠ host) :
    ∃ d', setHost host d = .ok () d' ∧ d'.Tidy drawn P' ∧ d'.host = host ∧
      ∀ name, (d'.desk.editor? name).map Editor.alive = (d.desk.editor? name).map Editor.alive := by
  obtain ⟨d', hclear, htidy, hhost, hhandles, halive, hblank⟩ := h.clear hempty
  refine ⟨{ d' with host }, ?_, ⟨fun name e he => ?_, ?_⟩, rfl, halive⟩
  · unfold Decorations.setHost
    rw [Step.bind_of_ok (Step.get_apply d)]
    simp only [if_neg hne]
    rw [Step.bind_of_ok hclear]
    rfl
  · obtain ⟨hw, hbound, _⟩ := htidy.canvas name e he
    exact ⟨hw, hbound, fun halive _ => hblank name e he halive⟩
  · by_cases hthere : ∃ name, host = some name ∧ d'.desk.isAlive name = true
    · obtain ⟨name, rfl, hthere⟩ := hthere
      cases he : d'.desk.editor? name with
      | none => rw [Desk.isAlive, he] at hthere; cases hthere
      | some e =>
        rw [Desk.isAlive, he, Option.any_some] at hthere
        -- the new host has no layers, so its board is empty
        refine Or.inl ⟨⟨name, e.canvas.made, [], d'.desk.calls⟩, ⟨rfl, hhandles, ?_, ?_⟩,
          hempty _ rfl⟩
        · exact ⟨rfl, e, he, (htidy.canvas name e he).1, rfl, hblank name e he hthere⟩
        · exact ⟨List.nodup_nil, List.nodup_nil, by simp⟩
    · refine Or.inr ⟨hhandles, fun name hname => ?_⟩
      rw [← Bool.not_eq_true]
      exact fun hthere' => hthere ⟨name, hname, hthere'⟩

end Decorations

/-! ## Blank desks -/

namespace Desk

/-- All editors grant every call and have no decorations. -/
def Blank (d : Desk) : Prop :=
  ∀ name e, d.editor? name = some e → e.canvas.Willing ∧ e.canvas.layers = []

theorem forall_editor? {d : Desk} {P : Editor → Prop} (h : ∀ x ∈ d.editors, P x.2) {name : String}
    {e : Editor} (he : d.editor? name = some e) : P e := by
  obtain ⟨before, rest, heq, _⟩ := List.lookup_eq_some_iff.mp he
  exact h (name, e) (by rw [heq]; simp)

/-- A desk is blank if all its editors are. -/
theorem blank_of_forall {d : Desk}
    (h : ∀ x ∈ d.editors, x.2.canvas.Willing ∧ x.2.canvas.layers = []) : d.Blank := fun _ _ =>
  forall_editor? (P := fun e => e.canvas.Willing ∧ e.canvas.layers = []) h

/-- A desk with one editor, which shows two letters. -/
def twoLetters : Desk where
  editors := [("e", { content := .given (some { text := "a b" }) [] .null })]

theorem twoLetters_blank : twoLetters.Blank := by
  refine blank_of_forall fun x hx => ?_
  rw [List.mem_singleton.mp hx]
  exact ⟨⟨rfl, fun _ => rfl⟩, rfl⟩

end Desk

/-- Without a host and without decorations on the desk, all is tidy. -/
theorem Decorations.tidy_of_blank {desk : Desk} (h : desk.Blank) {P : Board → Prop}
    {drawn : String → Nat → Prop} (hnone : ∀ name handle, ¬ drawn name handle) :
    Tidy drawn P { desk } where
  canvas name e he :=
    ⟨(h name e he).1, fun handle hdrawn => absurd hdrawn (hnone name handle),
      fun _ _ => (h name e he).2⟩
  board := Or.inr ⟨rfl, fun name hname => by cases hname⟩

end Conceal
