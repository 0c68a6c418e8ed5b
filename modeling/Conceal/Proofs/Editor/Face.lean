import Conceal.Editor.Basic

/-!
What an editor answers when it is asked, its face, and what calls to its canvas leave of it. An
editor that grants every call does what it is asked to and keeps its face; all other editors on the
desk stay as they are. Main statement: `Desk.Holds.send`.
-/

namespace Conceal

/-- A canvas that names its handles and refuses nothing. -/
structure Canvas.Willing (c : Canvas) : Prop where
  named : c.anonymous = false
  grants : ∀ call, c.refuses call = none

namespace Canvas.Willing

variable {c : Canvas}

/-- A willing canvas carries out each call: it counts it and redraws its layers. -/
theorem receive_eq (h : c.Willing) (call : Call) :
    c.receive call = ({ c.count call with layers := redraw c.layers call }, none) := by
  rw [receive, h.grants call]

theorem receive (h : c.Willing) (call : Call) : (c.receive call).1.Willing :=
  ⟨by rw [anonymous_receive]; exact h.named, fun other => by rw [refuses_receive]; exact h.grants _⟩

theorem nextHandle (h : c.Willing) : c.nextHandle = some (c.made + 1) := by
  simp [Canvas.nextHandle, h.named]

end Canvas.Willing

/-- What an editor answers when it is asked. -/
structure Face where
  document : Option Document
  ends : Except Fault (List (Int × Int))
  caretStyle : Json
  alive : Bool

namespace TextArea

theorem holds_ofDocument (a : TextArea) : a.holds (Snapshot.ofDocument a.document) = true := by
  simp [holds, Snapshot.ofDocument, document]

/-- Taking a snapshot changes nothing but which snapshot was the last, and how many there were. -/
theorem capture_eq (a : TextArea) :
    ∃ snapshots, a.capture = { a with taken := some a.snapshot, snapshots } := by
  unfold capture
  split
  next hholds =>
    obtain ⟨s, hs⟩ := Option.isSome_iff_exists.mp hholds
    have htaken := (Option.filter_eq_some_iff.mp hs).1
    refine ⟨a.snapshots, ?_⟩
    rw [snapshot, hs, Option.getD_some, ← htaken]
  · exact ⟨a.snapshots + 1, rfl⟩

/-- The snapshot that an area answers with holds. -/
theorem holds_snapshot (a : TextArea) : a.holds a.snapshot = true := by
  unfold snapshot
  cases h : a.taken.filter a.holds with
  | none => exact a.holds_ofDocument
  | some s => exact (Option.filter_eq_some_iff.mp h).2

/-- Taking the text over once more does not change what is read of it. -/
@[simp] theorem snapshot_capture (a : TextArea) : a.capture.snapshot = a.snapshot := by
  obtain ⟨snapshots, h⟩ := a.capture_eq
  have hholds : a.capture.holds a.snapshot = true := by
    rw [h]
    exact a.holds_snapshot
  have htaken : a.capture.taken = some a.snapshot := by rw [h]
  rw [snapshot, htaken, Option.filter_some, if_pos hholds, Option.getD_some]

@[simp] theorem toOffset_capture (a : TextArea) (position : Int) :
    a.capture.toOffset position = a.toOffset position := by
  rw [toOffset, snapshot_capture, toOffset]

/-- The carets do not depend on whether the text has been taken over. -/
@[simp] theorem selections_capture (a : TextArea) : a.capture.selections = a.selections := by
  have hoffsets := toOffset_capture a
  obtain ⟨snapshots, h⟩ := a.capture_eq
  rw [h] at hoffsets ⊢
  simp only [selections, hoffsets]

@[simp] theorem caretStyle_capture (a : TextArea) : a.capture.caretStyle = a.caretStyle := by
  obtain ⟨snapshots, h⟩ := a.capture_eq
  rw [h]

/-- Drawing layers changes nothing but what is drawn. -/
theorem showLayers_eq (a : TextArea) (layers : List Layer) :
    ∃ highlights shown, a.showLayers layers = { a with highlights, shown } ∨
      a.showLayers layers = { a.capture with highlights, shown } := by
  unfold showLayers
  dsimp only
  split
  · exact ⟨_, _, Or.inl rfl⟩
  · exact ⟨_, _, Or.inr rfl⟩

/-- New highlights leave the text alone. -/
theorem snapshot_showLayers (a : TextArea) (layers : List Layer) :
    (a.showLayers layers).snapshot = a.snapshot := by
  obtain ⟨highlights, shown, h | h⟩ := a.showLayers_eq layers
  · rw [h]; rfl
  · rw [h]; exact snapshot_capture a

theorem selections_showLayers (a : TextArea) (layers : List Layer) :
    (a.showLayers layers).selections = a.selections := by
  obtain ⟨highlights, shown, h | h⟩ := a.showLayers_eq layers
  · rw [h]; rfl
  · rw [h]; exact selections_capture a

theorem caretStyle_showLayers (a : TextArea) (layers : List Layer) :
    (a.showLayers layers).caretStyle = a.caretStyle := by
  obtain ⟨highlights, shown, h | h⟩ := a.showLayers_eq layers
  · rw [h]
  · rw [h]; exact caretStyle_capture a

end TextArea

namespace Editor

/-- What an editor answers when it is asked. -/
def face (e : Editor) : Face := ⟨e.snapshot.1, e.selections.1, e.caretStyle, e.alive⟩

/-- A call reaches the canvas in the same way, whichever content the editor has. -/
theorem canvas_receive (e : Editor) (call : Call) :
    (e.receive call).1.canvas = (e.canvas.receive call).1 := by
  unfold receive
  split
  next h => simp [h]
  next h => split <;> simp [h]

/-- What a call changes is drawn and is not read: the face of the editor stays. -/
theorem face_receive (e : Editor) (call : Call) : (e.receive call).1.face = e.face := by
  unfold receive
  split
  · cases hcontent : e.content <;> simp [face, snapshot, selections, caretStyle, hcontent]
  · split
    next hcontent => simp [face, snapshot, selections, caretStyle, hcontent]
    next area hcontent =>
      dsimp only
      split
      · simp [face, snapshot, selections, caretStyle, hcontent, TextArea.snapshot_showLayers,
          TextArea.selections_showLayers, TextArea.caretStyle_showLayers]
      · simp [face, snapshot, selections, caretStyle, hcontent]

/-- A willing editor refuses no call. -/
theorem receive_granted {e : Editor} (h : e.canvas.Willing) (call : Call) :
    (e.receive call).2 = none := by
  unfold receive
  rw [h.receive_eq]
  split
  next heq => cases heq
  · split <;> rfl

theorem face_snapshot (e : Editor) : e.snapshot.2.face = e.face := by
  unfold snapshot
  split
  · rfl
  next hcontent => simp [face, snapshot, selections, caretStyle, hcontent]

/-- Reading the text does not draw. -/
theorem canvas_snapshot (e : Editor) : e.snapshot.2.canvas = e.canvas := by
  unfold snapshot
  split <;> rfl

theorem face_selections (e : Editor) : e.selections.2.face = e.face := by
  unfold selections
  split
  · rfl
  next hcontent => simp [face, snapshot, selections, caretStyle, hcontent]

/-- Reading the carets does not draw. -/
theorem canvas_selections (e : Editor) : e.selections.2.canvas = e.canvas := by
  unfold selections
  split <;> rfl

end Editor

namespace Desk

/-- Changing one editor leaves the others where they were. -/
theorem editor?_change (d : Desk) (name n : String) (f : Editor → Editor) :
    (d.change name f).editor? n =
      if n = name then (d.editor? n).map f else d.editor? n := by
  simp only [editor?, change]
  induction d.editors with
  | nil => simp
  | cons s rest ih =>
    obtain ⟨m, e⟩ := s
    by_cases hm : n = m
    · subst hm
      by_cases hn : n = name <;> simp [hn]
    · have hne : (n == m) = false := by simpa using hm
      have hfst : (if m = name then (m, f e) else (m, e)) = (m, if m = name then f e else e) := by
        split <;> rfl
      simp only [List.map_cons, hfst, List.lookup_cons, hne]
      exact ih

/-- An editor is replaced by one that gives the same view. -/
theorem map_change {α : Type} {view : Editor → α} {d : Desk} {name : String} {e e' : Editor}
    (he : d.editor? name = some e) (h : view e' = view e) (n : String) :
    ((d.change name fun _ => e').editor? n).map view = (d.editor? n).map view := by
  rw [editor?_change]
  split
  next hn => rw [hn, he, Option.map_some, Option.map_some, Option.map_some, h]
  · rfl

/-- One editor may have another content and other layers, but has the same face; all others are as
they were. -/
structure Redrawn (name : String) (d d' : Desk) : Prop where
  others : ∀ n ≠ name, d'.editor? n = d.editor? n
  face : (d'.editor? name).map Editor.face = (d.editor? name).map Editor.face

theorem Redrawn.refl (name : String) (d : Desk) : Redrawn name d d := ⟨fun _ _ => rfl, rfl⟩

theorem Redrawn.trans {name : String} {d d' d'' : Desk} (h : Redrawn name d d')
    (h' : Redrawn name d' d'') : Redrawn name d d'' :=
  ⟨fun n hn => (h'.others n hn).trans (h.others n hn), h'.face.trans h.face⟩

theorem Redrawn.alive_eq {name : String} {d d' : Desk} (h : Redrawn name d d') (n : String) :
    (d'.editor? n).map Editor.alive = (d.editor? n).map Editor.alive := by
  by_cases hn : n = name
  · subst hn
    have := congrArg (Option.map Face.alive) h.face
    rwa [Option.map_map, Option.map_map] at this
  · rw [h.others n hn]

theorem isAlive_congr {d d' : Desk} {n : String}
    (h : (d'.editor? n).map Editor.alive = (d.editor? n).map Editor.alive) :
    d'.isAlive n = d.isAlive n := by
  have := congrArg (Option.any id) h
  rwa [Option.any_map, Option.any_map] at this

/-- An editor that keeps its face may be put in the place of the old one. -/
theorem redrawn_change {d : Desk} {name : String} {e : Editor} (he : d.editor? name = some e)
    {e' : Editor} (hface : e'.face = e.face) : Redrawn name d (d.change name fun _ => e') where
  others n hn := by rw [editor?_change, if_neg hn]
  face := map_change he hface name

/-- The canvas of an editor that grants every call: the handles made, the layers, and the calls to
all canvases. -/
structure Holds (d : Desk) (name : String) (made : Nat) (layers : List Layer)
    (calls : List (String × Call)) : Prop where
  calls : d.calls = calls
  canvas : ∃ e, d.editor? name = some e ∧ e.canvas.Willing ∧ e.canvas.made = made ∧
    e.canvas.layers = layers

variable {d : Desk} {name : String} {made : Nat} {layers : List Layer}
  {calls : List (String × Call)}

/-- A change of an editor that leaves its canvas and its face alone. -/
theorem Holds.change (h : d.Holds name made layers calls) {e e' : Editor}
    (he : d.editor? name = some e) (hface : e'.face = e.face) (hcanvas : e'.canvas = e.canvas) :
    (d.change name fun _ => e').Holds name made layers calls ∧
      Redrawn name d (d.change name fun _ => e') := by
  obtain ⟨e₀, he₀, hw, hmade, hlayers⟩ := h.canvas
  obtain rfl : e₀ = e := Option.some.inj (he₀.symm.trans he)
  refine ⟨⟨h.calls, e', ?_, ?_⟩, redrawn_change he hface⟩
  · rw [editor?_change, if_pos rfl, he]
    rfl
  · rw [hcanvas]
    exact ⟨hw, hmade, hlayers⟩

/-- A call to a canvas that refuses nothing is done. -/
theorem Holds.send (h : d.Holds name made layers calls) (call : Call) :
    ∃ d', Desk.send name call d = .ok () d' ∧ Redrawn name d d' ∧
      d'.Holds name (match call with | .create _ _ => made + 1 | _ => made)
        (Canvas.redraw layers call) ((name, call) :: calls) := by
  obtain ⟨e, he, hw, hmade, hlayers⟩ := h.canvas
  -- the editor does what it is asked to, which only shows in its canvas
  have hredrawn := redrawn_change he (e.face_receive call)
  refine ⟨{ d.change name (fun _ => (e.receive call).1) with calls := (name, call) :: d.calls },
    ?_, ⟨hredrawn.others, hredrawn.face⟩, by rw [h.calls], (e.receive call).1, ?_, ?_, ?_, ?_⟩
  · have hgranted := Editor.receive_granted hw call
    simp only [Desk.send, he]
    split
    next hrefused => exact absurd (hgranted.symm.trans hrefused) (by simp)
    · rfl
  · have hchange := editor?_change d name name fun _ => (e.receive call).1
    rw [if_pos rfl, he] at hchange
    exact hchange
  · rw [e.canvas_receive]
    exact hw.receive call
  · rw [e.canvas_receive, hw.receive_eq, ← hmade]
    cases call <;> rfl
  · rw [e.canvas_receive, hw.receive_eq, hlayers]

/-- The document that an editor answers with. -/
def document? (d : Desk) (name : String) : Option Document :=
  (d.editor? name).bind fun e => e.face.document

/-- The selections that an editor answers with, or what is wrong with them. -/
def ends (d : Desk) (name : String) : Except Fault (List (Int × Int)) :=
  ((d.editor? name).map fun e => e.face.ends).getD (.ok [])

/-- An editor that is asked answers with its document. -/
theorem snapshot_eq (name : String) (d : Desk) :
    snapshot name d = .ok (d.document? name) (Step.after (snapshot name) d) := by
  unfold Step.after snapshot document?
  cases d.editor? name <;> rfl

/-- After a redrawing each editor shows the text that it showed. -/
theorem Redrawn.document?_eq {d' : Desk} (h : Redrawn name d d') :
    d'.document? name = d.document? name := by
  have := congrArg (Option.bind · Face.document) h.face
  simpa [document?, Option.bind_map, Function.comp_def] using this

/-- After a redrawing each editor's carets stand where they stood. -/
theorem Redrawn.ends_eq {d' : Desk} (h : Redrawn name d d') : d'.ends name = d.ends name := by
  have := congrArg (fun f => (f.map Face.ends).getD (.ok [])) h.face
  simpa [ends, Function.comp_def] using this

/-- A desk that serves gives the text that the editor shows, and goes on serving. -/
theorem Holds.snapshot (h : d.Holds name made layers calls) :
    ∃ d', Desk.snapshot name d = .ok (d.document? name) d' ∧ Redrawn name d d' ∧
      d'.Holds name made layers calls := by
  obtain ⟨e, he, _⟩ := h.canvas
  have hnoted : (d.note name .document).Holds name made layers calls := ⟨h.calls, h.canvas⟩
  obtain ⟨hholds, hredrawn⟩ := hnoted.change he e.face_snapshot e.canvas_snapshot
  refine ⟨_, ?_, ⟨hredrawn.others, hredrawn.face⟩, hholds⟩
  simp only [Desk.snapshot, he, document?]
  rfl

/-- Asking for the selections leaves the canvas alone, also where they cannot be read. -/
theorem Holds.selections (h : d.Holds name made layers calls) :
    ∃ d', (Desk.selections name d = match d.ends name with
        | .ok ends => .ok ends d'
        | .error fault => .error fault d') ∧ Redrawn name d d' ∧
      d'.Holds name made layers calls := by
  obtain ⟨e, he, _⟩ := h.canvas
  have hnoted : (d.note name .selections).Holds name made layers calls := ⟨h.calls, h.canvas⟩
  obtain ⟨hholds, hredrawn⟩ := hnoted.change he e.face_selections e.canvas_selections
  refine ⟨_, ?_, ⟨hredrawn.others, hredrawn.face⟩, hholds⟩
  simp only [Desk.selections, he, ends, Editor.face, Option.map_some, Option.getD_some]
  cases h : e.selections with
  | mk ends e' => cases ends <;> rfl

end Desk

end Conceal
