import Conceal.Proofs.Editor.Face
import Conceal.Proofs.Masking.Frame

/-!
Contact with editors: the calls and the queries that have gone to each. Whatever the host refuses,
masking is in contact with its host and nobody else, changes no editor's face, and leaves the scopes
of the document alone. Main statement: `works_applyRules`
for the body of an update, with `works_update`.
-/

namespace Conceal

/-! ## Desks -/

namespace Desk

/-- The calls and the queries that have gone to an editor, the newest first. -/
def contacts (d : Desk) (name : String) : List Call × List Query :=
  ((d.calls.filter (·.1 = name)).map (·.2), (d.queries.filter (·.1 = name)).map (·.2))

/-- How many calls and queries have gone to an editor. -/
def contactCount (d : Desk) (name : String) : Nat :=
  (d.contacts name).1.length + (d.contacts name).2.length

/-- All editors have the same faces on the later desk and refuse the same calls, and nobody but the
host was contacted. -/
structure Meets (host : Option String) (d d' : Desk) : Prop where
  face : ∀ n, (d'.editor? n).map Editor.face = (d.editor? n).map Editor.face
  refuses : ∀ n, (d'.editor? n).map (·.canvas.refuses) = (d.editor? n).map (·.canvas.refuses)
  contacts : ∀ n, host ≠ some n → d'.contacts n = d.contacts n
  grows : ∀ n, d.contactCount n ≤ d'.contactCount n

variable {host : Option String} {d d' d'' : Desk} {name : String}

theorem Meets.refl (host : Option String) (d : Desk) : Meets host d d :=
  ⟨fun _ => rfl, fun _ => rfl, fun _ _ => rfl, fun _ => Nat.le_refl _⟩

/-- Where nobody but the host was contacted twice, nobody else was contacted. -/
theorem Meets.trans (h : Meets host d d') (h' : Meets host d' d'') : Meets host d d'' where
  face n := (h'.face n).trans (h.face n)
  refuses n := (h'.refuses n).trans (h.refuses n)
  contacts n hn := (h'.contacts n hn).trans (h.contacts n hn)
  grows n := Nat.le_trans (h.grows n) (h'.grows n)

instance : Std.Refl (Meets host) := ⟨Meets.refl host⟩

instance : Trans (Meets host) (Meets host) (Meets host) := ⟨Meets.trans⟩

theorem Meets.isAlive_eq (h : Meets host d d') (n : String) : d'.isAlive n = d.isAlive n := by
  have halive := congrArg (Option.map Face.alive) (h.face n)
  rw [Option.map_map, Option.map_map] at halive
  exact isAlive_congr halive

theorem Meets.document?_eq (h : Meets host d d') (n : String) :
    d'.document? n = d.document? n := by
  have hdocument := congrArg (Option.bind · Face.document) (h.face n)
  simpa [document?, Option.bind_map, Function.comp_def] using hdocument

/-- An editor that is redrawn shows the same face. -/
theorem Redrawn.face_eq (h : Redrawn name d d') (n : String) :
    (d'.editor? n).map Editor.face = (d.editor? n).map Editor.face := by
  by_cases hn : n = name
  · rw [hn]
    exact h.face
  · rw [h.others n hn]

/-- An editor was contacted: it is redrawn, with new calls and queries to it and to nobody else. -/
structure Contacted (name : String) (new : List Call) (asked : List Query) (d d' : Desk) : Prop where
  redrawn : Redrawn name d d'
  refuses : ∀ n, (d'.editor? n).map (·.canvas.refuses) = (d.editor? n).map (·.canvas.refuses)
  calls : d'.calls = new.map (fun call => (name, call)) ++ d.calls
  queries : d'.queries = asked.map (fun q => (name, q)) ++ d.queries

namespace Contacted

variable {new : List Call} {asked : List Query}

theorem contacts_eq (h : Contacted name new asked d d') :
    d'.contacts name = (new ++ (d.contacts name).1, asked ++ (d.contacts name).2) := by
  simp [contacts, h.calls, h.queries, List.filter_map, Function.comp_def]

theorem contacts_of_ne (h : Contacted name new asked d d') {n : String} (hn : name ≠ n) :
    d'.contacts n = d.contacts n := by
  simp [contacts, h.calls, h.queries, List.filter_map, Function.comp_def, hn]

/-- The contacts of the editor are counted. -/
theorem contactCount_eq (h : Contacted name new asked d d') :
    d'.contactCount name = d.contactCount name + (new.length + asked.length) := by
  rw [contactCount, contactCount, h.contacts_eq, List.length_append, List.length_append]
  omega

/-- Nobody but the editor was contacted. -/
theorem meets (h : Contacted name new asked d d') : Meets (some name) d d' where
  face := h.redrawn.face_eq
  refuses := h.refuses
  contacts n hn := h.contacts_of_ne fun heq => hn (congrArg some heq)
  grows n := by
    by_cases hn : name = n
    · have hcount := h.contactCount_eq
      rw [← hn]
      omega
    · have hcount : d'.contactCount n = d.contactCount n := by
        rw [contactCount, contactCount, h.contacts_of_ne hn]
      exact Nat.le_of_eq hcount.symm

end Contacted

/-- Nobody is there to receive a call. -/
theorem after_send_of_none (he : d.editor? name = none) (call : Call) :
    Step.after (send name call) d = d := by
  unfold Step.after send
  simp only [he]

/-- A call that is sent is noted, granted or not, and the editor has received it. -/
theorem after_send {e : Editor} (he : d.editor? name = some e) (call : Call) :
    Step.after (send name call) d =
      { d.change name (fun _ => (e.receive call).1) with calls := (name, call) :: d.calls } := by
  unfold Step.after send
  simp only [he]
  cases (e.receive call).2 <;> rfl

/-- A call that goes to an editor is received, granted or not. -/
theorem contacted_send {e : Editor} (he : d.editor? name = some e) (call : Call) :
    Contacted name [call] [] d (Step.after (send name call) d) := by
  have hredrawn := redrawn_change he (e.face_receive call)
  have hrefuses : (e.receive call).1.canvas.refuses = e.canvas.refuses := by
    rw [e.canvas_receive, Canvas.refuses_receive]
  rw [after_send he]
  exact ⟨⟨hredrawn.others, hredrawn.face⟩, map_change he hrefuses, rfl, rfl⟩

/-- A call contacts one editor. -/
theorem meets_send (name : String) (call : Call) :
    Step.Obeys (Meets (some name)) (send name call) := by
  intro d
  cases he : d.editor? name with
  | none =>
    rw [after_send_of_none he call]
    exact Meets.refl _ d
  | some e => exact (contacted_send he call).meets

/-- Without an editor nothing is asked for. -/
theorem after_snapshot_of_none (he : d.editor? name = none) :
    Step.after (snapshot name) d = d := by
  unfold Step.after snapshot
  simp only [he]

/-- Asking for the text is noted, and the editor may take it over. -/
theorem after_snapshot {e : Editor} (he : d.editor? name = some e) :
    Step.after (snapshot name) d = (d.note name .document).change name fun _ => e.snapshot.2 := by
  unfold Step.after snapshot
  simp only [he]

/-- The editors after one of them was asked for its document. -/
theorem editor?_snapshot (name n : String) (d : Desk) :
    (Step.after (snapshot name) d).editor? n =
      if n = name then (d.editor? n).map fun e => e.snapshot.2 else d.editor? n := by
  cases he : d.editor? name with
  | none =>
    rw [after_snapshot_of_none he]
    split
    next hn => rw [hn, he]; rfl
    · rfl
  | some e =>
    have hnoted : (d.note name .document).editor? n = d.editor? n := rfl
    rw [after_snapshot he, editor?_change, hnoted]
    split
    next hn => rw [hn, he]; rfl
    · rfl

/-- An editor that is asked for its document notes the query. -/
theorem contacted_snapshot {e : Editor} (he : d.editor? name = some e) :
    Contacted name [] [.document] d (Step.after (snapshot name) d) := by
  have hnoted : (d.note name .document).editor? name = some e := he
  have hredrawn := redrawn_change hnoted e.face_snapshot
  rw [after_snapshot he]
  exact ⟨⟨hredrawn.others, hredrawn.face⟩,
    map_change hnoted (congrArg Canvas.refuses e.canvas_snapshot), rfl, rfl⟩

/-- Asking for a document contacts one editor. -/
theorem meets_snapshot (name : String) : Step.Obeys (Meets (some name)) (snapshot name) := by
  intro d
  cases he : d.editor? name with
  | none =>
    rw [after_snapshot_of_none he]
    exact Meets.refl _ d
  | some e => exact (contacted_snapshot he).meets

theorem after_selections_of_none (he : d.editor? name = none) :
    Step.after (selections name) d = d := by
  unfold Step.after selections
  simp only [he]

/-- Selections that cannot be read are asked for all the same. -/
theorem after_selections {e : Editor} (he : d.editor? name = some e) :
    Step.after (selections name) d =
      (d.note name .selections).change name fun _ => e.selections.2 := by
  unfold Step.after selections
  simp only [he]
  rcases e.selections with ⟨ends | fault, e'⟩ <;> rfl

/-- Asking for selections contacts one editor, even where they cannot be read. -/
theorem meets_selections (name : String) : Step.Obeys (Meets (some name)) (selections name) := by
  intro d
  cases he : d.editor? name with
  | none =>
    rw [after_selections_of_none he]
    exact Meets.refl _ d
  | some e =>
    have hnoted : (d.note name .selections).editor? name = some e := he
    have hredrawn := redrawn_change hnoted e.face_selections
    have hcontacted : Contacted name [] [.selections] d (Step.after (selections name) d) := by
      rw [after_selections he]
      exact ⟨⟨hredrawn.others, hredrawn.face⟩,
        map_change hnoted (congrArg Canvas.refuses e.canvas_selections), rfl, rfl⟩
    exact hcontacted.meets

end Desk

/-! ## Decorations -/

namespace Decorations

/-- The later decorations have the same host, and nobody else was contacted. -/
structure Works (d d' : Decorations) : Prop where
  host : d'.host = d.host
  desk : d.desk.Meets d.host d'.desk

theorem Works.refl (d : Decorations) : Works d d := ⟨rfl, Desk.Meets.refl _ _⟩

theorem Works.trans {d d' d'' : Decorations} (h : Works d d') (h' : Works d' d'') : Works d d'' :=
  ⟨h'.host.trans h.host, h.desk.trans (h.host ▸ h'.desk)⟩

instance : Std.Refl Works := ⟨Works.refl⟩

instance : Trans Works Works Works := ⟨Works.trans⟩

theorem works_onDesk {α : Type} {act : Step Desk α} {d : Decorations} {host : String}
    (hhost : d.host = some host) (hact : Step.Obeys (Desk.Meets (some host)) act) :
    Works d (Step.after (onDesk act) d) := by
  rw [onDesk, Step.after_on]
  exact ⟨rfl, hhost ▸ hact d.desk⟩

/-- Working with the host is not broken by calls to it or by changes of the books. -/
theorem framed_works : Framed Works where
  host := Works.host
  send call hhost := works_onDesk hhost (Desk.meets_send _ call)
  snapshot hhost := works_onDesk hhost (Desk.meets_snapshot _)
  selections hhost := works_onDesk hhost (Desk.meets_selections _)
  handles _ _ := ⟨rfl, Desk.Meets.refl _ _⟩

theorem works_getOrCreate (key : String) (look : Look) :
    Step.Obeys Works (getOrCreate key look) :=
  framed_works.getOrCreate key look

theorem works_render (key : String) (stretches : List Stretch) :
    Step.Obeys Works (render key stretches) :=
  framed_works.render key stretches

theorem works_evict (key : String) : Step.Obeys Works (evict key) := framed_works.evict key

theorem works_evictEach (keys : List String) : Step.Obeys Works (evictEach keys) :=
  framed_works.evictEach keys

theorem works_evictAllExcept (keep : List String) : Step.Obeys Works (evictAllExcept keep) :=
  framed_works.evictAllExcept keep

theorem works_clear : Step.Obeys Works clear := framed_works.clear

end Decorations

/-! ## Masking -/

namespace Masking

/-- The later masking has the same scopes and the same host, and nobody else was contacted. -/
structure Works (m m' : Masking) : Prop where
  scopes : m'.scopes = m.scopes
  decorations : m.decorations.Works m'.decorations

theorem Works.refl (m : Masking) : Works m m := ⟨rfl, Decorations.Works.refl _⟩

theorem Works.trans {m m' m'' : Masking} (h : Works m m') (h' : Works m' m'') : Works m m'' :=
  ⟨h'.scopes.trans h.scopes, h.decorations.trans h'.decorations⟩

instance : Std.Refl Works := ⟨Works.refl⟩

instance : Trans Works Works Works := ⟨Works.trans⟩

/-- Work of the decorations is work of the masking. -/
theorem works_onDecorations {α : Type} {act : Step Decorations α} {m : Masking}
    (h : m.decorations.Works (Step.after act m.decorations)) :
    Works m (Step.after (onDecorations act) m) := by
  rw [onDecorations, Step.after_on]
  exact ⟨rfl, h⟩

/-- What the decorations alone do works on their host alone. -/
theorem works_of_keeping {α : Type} {act : Step Masking α}
    (h : Step.Obeys (Keeping Decorations.Works) act) : Step.Obeys Works act := fun m =>
  ⟨(h m).scopes, (h m).decorations⟩

theorem works_report (n : Notice) : Step.Obeys Works (report n) :=
  works_of_keeping (Decorations.Framed.report n)

theorem works_carryOut (base : String) (ds : List Decision)
    (found : List (String × List Stretch)) : Step.Obeys Works (carryOut base ds found) :=
  works_of_keeping (Decorations.framed_works.carryOut base ds found)

theorem works_renderEach (found : List (String × List Stretch)) :
    Step.Obeys Works (renderEach found) :=
  works_of_keeping (Decorations.framed_works.renderEach found)

theorem works_noteKeys (used : List String) : Step.Obeys Works (noteKeys used) :=
  works_of_keeping (Decorations.Framed.noteKeys used)

theorem works_evictAllExcept (keep : List String) :
    Step.Obeys Works (onDecorations (Decorations.evictAllExcept keep)) := fun _ =>
  works_onDecorations (Decorations.works_evictAllExcept keep _)

/-- What is asked of the host. -/
theorem works_onDesk {α : Type} {act : Step Desk α} {m : Masking} {host : String}
    (hhost : m.editor? = some host) (hact : Step.Obeys (Desk.Meets (some host)) act) :
    Works m (Step.after (onDesk act) m) :=
  works_onDecorations (Decorations.works_onDesk hhost hact)

/-- Applying an entry contacts nobody but the host. -/
theorem works_apply (pattern : Pattern) (mask : Mask) (caretStyle : String) :
    Step.Obeys Works (apply pattern mask caretStyle) :=
  works_of_keeping (Decorations.framed_works.apply pattern mask caretStyle)

/-- Whatever an update does, it is in contact with the host alone. -/
theorem works_update {α : Type} {body : Step Masking α} (h : Step.Obeys Works body) :
    Step.Obeys Works (update body) :=
  works_of_keeping (Decorations.framed_works.update fun m => ⟨(h m).scopes, (h m).decorations⟩)

end Masking

namespace Session

/-- Applying rule-sets contacts nobody but the host. -/
theorem works_applyRules (document : Document) (caretStyle : String) (rules : List Json) :
    Step.Obeys Masking.Works (applyRules document caretStyle rules) :=
  Masking.works_of_keeping (Decorations.framed_works.applyRules document caretStyle rules)

end Session

end Conceal
