import Conceal.Proofs.Decoration.Alive
import Conceal.Proofs.Editor.Offsets

/-!
What an editor for typing draws for its decorations. Some calls to its canvas draw all layers anew
and some do not; still the selections are always those of the layers that there are, and these are
told by the calls alone. Main statement: `highlights_follow`.
-/

namespace Conceal

/-! ## Layers by the calls that were done -/

namespace Call

/-- The stretches that calls give to a handle last, or those that it had before. -/
def lastSet (handle : Nat) (before : List Stretch) : List Call → List Stretch
  | [] => before
  | .set h stretches :: rest => lastSet handle (if h = handle then stretches else before) rest
  | .create _ _ :: rest => lastSet handle before rest
  | .dispose _ :: rest => lastSet handle before rest

/-- What calls leave of decorations: those that are created and not disposed of later, in the order
of their creation. -/
def layersOf : List Call → List Layer
  | [] => []
  | .create (some handle) look :: rest =>
    if .dispose handle ∈ rest then layersOf rest
    else ⟨handle, look, lastSet handle [] rest⟩ :: layersOf rest
  | .create none _ :: rest => layersOf rest
  | .set _ _ :: rest => layersOf rest
  | .dispose _ :: rest => layersOf rest

/-- The handles that calls give. -/
def given : List Call → List Nat
  | [] => []
  | .create (some handle) _ :: rest => handle :: given rest
  | .create none _ :: rest => given rest
  | .set _ _ :: rest => given rest
  | .dispose _ :: rest => given rest

/-- What calls leave of decorations that there are already. -/
def remaining (layers : List Layer) (calls : List Call) : List Layer :=
  (layers.filter fun l => .dispose l.handle ∉ calls).map fun l =>
    { l with stretches := lastSet l.handle l.stretches calls }

private theorem remaining_nil (layers : List Layer) : remaining layers [] = layers := by
  simp [remaining, lastSet]

private theorem remaining_append (layers more : List Layer) (calls : List Call) :
    remaining (layers ++ more) calls = remaining layers calls ++ remaining more calls := by
  rw [remaining, List.filter_append, List.map_append, remaining, remaining]

private theorem remaining_create (layers : List Layer) (handle : Option Nat) (look : Look)
    (calls : List Call) :
    remaining layers (.create handle look :: calls) = remaining layers calls := by
  simp [remaining, lastSet]

/-- Setting the stretches of a layer redraws it once, whatever is called after. -/
private theorem remaining_set (layers : List Layer) (handle : Nat) (stretches : List Stretch)
    (calls : List Call) : remaining layers (.set handle stretches :: calls) =
      remaining (Canvas.redraw layers (.set handle stretches)) calls := by
  have hhandle (l : Layer) :
      (if l.handle = handle then { l with stretches } else l).handle = l.handle := by
    split <;> rfl
  rw [remaining, Canvas.redraw, remaining, List.filter_map, List.map_map]
  simp only [Function.comp_def, hhandle, List.mem_cons, reduceCtorEq, false_or]
  refine List.map_congr_left fun l _ => ?_
  rw [lastSet]
  by_cases hl : l.handle = handle
  · rw [if_pos hl, if_pos hl.symm]
  · rw [if_neg hl, if_neg (Ne.symm hl)]

private theorem remaining_dispose (layers : List Layer) (handle : Nat) (calls : List Call) :
    remaining layers (.dispose handle :: calls) =
      remaining (Canvas.redraw layers (.dispose handle)) calls := by
  rw [remaining, Canvas.redraw, remaining, List.filter_filter]
  congr 1
  refine List.filter_congr fun l _ => ?_
  by_cases hl : l.handle = handle <;> simp [hl]

/-- Done one after the other on some layers, calls leave what they leave of these, and then the
layers that they make themselves. -/
private theorem foldl_redraw (layers : List Layer) (calls : List Call) :
    calls.foldl Canvas.redraw layers = remaining layers calls ++ layersOf calls := by
  -- the first call makes the layers that the rest finds, so the induction is for all layers
  induction calls generalizing layers with
  | nil => rw [remaining_nil, layersOf, List.append_nil, List.foldl_nil]
  | cons call rest ih =>
    rw [List.foldl_cons, ih]
    cases call with
    | create handle look =>
      rw [remaining_create]
      cases handle with
      | none => rfl
      | some handle =>
        rw [Canvas.redraw, remaining_append, List.append_assoc, layersOf]
        congr 1
        split
        next hdisposed => simp [remaining, hdisposed]
        next hdisposed => simp [remaining, hdisposed]
    | set handle stretches => rw [remaining_set, layersOf]
    | dispose handle => rw [remaining_dispose, layersOf]

/-- One more call redraws the layers that the calls before left. -/
theorem layersOf_concat (calls : List Call) (call : Call) :
    layersOf (calls ++ [call]) = Canvas.redraw (layersOf calls) call := by
  have hfold (calls : List Call) : calls.foldl Canvas.redraw [] = layersOf calls := by
    rw [foldl_redraw]
    rfl
  rw [← hfold, List.foldl_append, hfold]
  rfl

/-- A call to a handle sets its stretches or disposes of it. -/
theorem cases_of_uses {call : Call} {handle : Nat} (h : call.uses handle = true) :
    (∃ stretches, call = .set handle stretches) ∨ call = .dispose handle := by
  cases call with
  | create _ _ => cases h
  | set n stretches =>
    obtain rfl : n = handle := by simpa [uses] using h
    exact Or.inl ⟨stretches, rfl⟩
  | dispose n =>
    obtain rfl : n = handle := by simpa [uses] using h
    exact Or.inr rfl

/-- Is everything that is to be decorated inside of a text? -/
def Inside (text : String) : Call → Prop
  | .set _ stretches => ∀ s ∈ stretches,
      0 ≤ s.start ∧ s.start ≤ text.toList.length ∧ 0 ≤ s.stop ∧ s.stop ≤ text.toList.length
  | .create _ _ => True
  | .dispose _ => True

instance (text : String) (call : Call) : Decidable (call.Inside text) := by
  cases call <;> unfold Inside <;> infer_instance

/-- Where all that was ever decorated is inside of a text, so is all that still is. -/
theorem inside_layersOf {text : String} {calls : List Call} (h : ∀ call ∈ calls, call.Inside text)
    {l : Layer} (hl : l ∈ layersOf calls) : (Call.set l.handle l.stretches).Inside text := by
  -- from the end: what a call leaves is told by the layers before it
  induction calls using List.reverseRecOn generalizing l with
  | nil => cases hl
  | append_singleton calls call ih =>
    have ih {l : Layer} := ih (l := l) fun c hc => h c (List.mem_append_left _ hc)
    have hcall := h call (by simp)
    rw [layersOf_concat] at hl
    cases call with
    | create handle look =>
      cases handle with
      | none => exact ih hl
      | some handle =>
        rcases List.mem_append.mp hl with hl | hl
        · exact ih hl
        · rw [List.mem_singleton.mp hl]
          exact fun s hs => by cases hs
    | set handle stretches =>
      obtain ⟨l', hl', rfl⟩ := List.mem_map.mp hl
      split
      · exact hcall
      · exact ih hl'
    | dispose handle => exact ih (List.mem_of_mem_filter hl)

end Call

/-! ## Selections of stretches -/

/-- The selection of a stretch of a text: from the units before its start to those before its
end. -/
def spanOf (text : String) (format : Format) (s : Stretch) : Highlight where
  anchor := (Text.encodeUnits (text.toList.take s.start.toNat)).length
  position := (Text.encodeUnits (text.toList.take s.stop.toNat)).length
  format := format

/-- One selection for every stretch of every layer, drawn in the style of the layer, in the colors
of a host. -/
def spansOf (palette : Palette) (text : String) (layers : List Layer) : List Highlight :=
  layers.flatMap fun l => l.stretches.map (spanOf text (TextArea.formatOf palette l))

namespace TextArea

variable {a : TextArea} {textOf : Nat → String}

/-- The way to the place of an offset, counted in the units of the host. -/
theorem Sound.reach_toPosition (h : a.Sound textOf) {o : Int} (hlow : 0 ≤ o)
    (hhigh : o ≤ a.text.toList.length) (before : Nat) :
    a.reach (a.toPosition o) before =
      (Text.encodeUnits (a.text.toList.take o.toNat)).length := by
  obtain ⟨o, rfl⟩ := Int.eq_ofNat_of_zero_le hlow
  have hle := Text.units_take_le a.text.toList o
  rw [h.toPosition_eq (by omega), reach, if_pos ⟨by omega, by exact_mod_cast hle⟩,
    Text.length_encodeUnits]
  rfl

/-- Drawing layers draws one selection for every stretch, and the line of the caret under them. -/
theorem exists_showLayers_eq (a : TextArea) (layers : List Layer) :
    let drawn := layers.flatMap fun l => l.stretches.map (a.highlight (formatOf a.palette l))
    ∃ taken snapshots, a.showLayers layers =
      { a with
        highlights := drawn
        shown := (if a.readOnly then [] else [⟨a.position, a.position, .currentLine⟩]) ++ drawn
        taken
        snapshots } := by
  unfold showLayers
  dsimp only
  split
  · exact ⟨_, _, rfl⟩
  · obtain ⟨snapshots, hcapture⟩ := a.capture_eq
    rw [hcapture]
    exact ⟨_, _, rfl⟩

/-- Each selection reaches over the units of its stretch. -/
theorem Sound.drawn_eq (h : a.Sound textOf) (layers : List Layer)
    (hinside : ∀ l ∈ layers, (Call.set l.handle l.stretches).Inside a.text) :
    (layers.flatMap fun l => l.stretches.map (a.highlight (formatOf a.palette l))) =
      spansOf a.palette a.text layers := by
  refine List.flatMap_congr fun l hl => List.map_congr_left fun s hs => ?_
  obtain ⟨hstart, hstart', hstop, hstop'⟩ := hinside l hl s hs
  simp only [highlight, h.reach_toPosition hstart hstart', h.reach_toPosition hstop hstop', spanOf]

end TextArea

/-! ## Editors that serve calls -/

namespace Editor

/-- Can an editor be sent a call as it is? What is created gets the next handle. -/
def Fits (e : Editor) : Call → Prop
  | .create handle _ => handle = e.canvas.nextHandle
  | .set _ _ => True
  | .dispose _ => True

/-- The editors for typing that are reached when revision `n` of the text is `textOf n`, on any
host. -/
inductive Reached (textOf : Nat → String) : Editor → Prop
  | start {palette : Palette} (h : textOf 0 = "") : Reached textOf (typing { palette })
  | receive {e : Editor} {call : Call} (he : Reached textOf e) (h : e.Fits call) :
      Reached textOf (e.receive call).1
  | happens {e : Editor} {a b : TextArea} (he : Reached textOf e) (harea : e.content = .typed a)
      (h : a.Happens b) (htext : b.text = textOf b.revision) :
      Reached textOf { e with content := .typed b }
  | wire {e : Editor} (he : Reached textOf e) (alive : Bool) (connected : List Signal) :
      Reached textOf { e with alive, connected }

/-- What comes of an editor that is sent calls while its text stays as it is, and the calls that it
did, in order. Calls may be refused, and other things may happen in between. -/
inductive Serves (textOf : Nat → String) (e : Editor) : List Call → Editor → Prop
  | start : Serves textOf e [] e
  | done {calls : List Call} {call : Call} {e' e'' : Editor} {a : TextArea}
      (h : Serves textOf e calls e') (hfits : e'.Fits call) (harea : e'.content = .typed a)
      (hinside : call.Inside a.text) (hdone : e'.receive call = (e'', none)) :
      Serves textOf e (calls ++ [call]) e''
  | refused {calls : List Call} {call : Call} {e' e'' : Editor} {fault : Fault}
      (h : Serves textOf e calls e') (hfits : e'.Fits call)
      (hrefused : e'.receive call = (e'', some fault)) : Serves textOf e calls e''
  | happens {calls : List Call} {e' : Editor} {a b : TextArea} (h : Serves textOf e calls e')
      (harea : e'.content = .typed a) (hhappens : a.Happens b) (hsame : b.text = a.text)
      (htext : b.text = textOf b.revision) :
      Serves textOf e calls { e' with content := .typed b }

variable {textOf : Nat → String} {e e' e'' : Editor} {a b : TextArea} {calls : List Call}
  {call : Call}

/-- What every editor for typing keeps to: it names its handles, all that it can refuse is the
creation of a decoration, and where nothing is decorated no selection is drawn. -/
structure Ready (textOf : Nat → String) (e : Editor) (a : TextArea) : Prop where
  area : e.content = .typed a
  sound : a.Sound textOf
  named : e.canvas.anonymous = false
  refuses : e.canvas.refuses = refusal a.palette
  highlights : (∀ l ∈ e.canvas.layers, l.stretches = []) → a.highlights = []

/-- An area after a call to its canvas that is done: maybe the layers are drawn anew. -/
def redrawn (c : Canvas) (call : Call) (a : TextArea) : TextArea :=
  if redraws c call then a.showLayers (Canvas.redraw c.layers call) else a

/-- What a call comes to: it is refused, or it is done. -/
theorem receive_cases (harea : e.content = .typed a) (call : Call) :
    (∃ fault, e.canvas.refuses call = some fault ∧
      e.receive call = ({ e with canvas := e.canvas.count call }, some fault)) ∨
      e.receive call = ({ e with
        canvas := { e.canvas.count call with layers := Canvas.redraw e.canvas.layers call }
        content := .typed (redrawn e.canvas call a) }, none) := by
  cases hrefuses : e.canvas.refuses call with
  | some fault =>
    refine Or.inl ⟨fault, rfl, ?_⟩
    simp only [receive, Canvas.receive, hrefuses]
  | none =>
    refine Or.inr ?_
    simp only [receive, Canvas.receive, hrefuses, harea, redrawn]

/-- A call with a handle that is not known changes no layer. -/
theorem redraw_of_unknown {c : Canvas} {handle : Nat} (huses : call.uses handle = true)
    (hunknown : handle ∉ c.handles) : Canvas.redraw c.layers call = c.layers := by
  have hnone : ∀ l ∈ c.layers, l.handle ≠ handle := by
    rintro l hl rfl
    exact hunknown (List.mem_map_of_mem hl)
  obtain ⟨stretches, rfl⟩ | rfl := Call.cases_of_uses huses
  · have hsame : Canvas.redraw c.layers (.set handle stretches) = c.layers.map id :=
      List.map_congr_left fun l hl => if_neg (hnone l hl)
    exact hsame.trans (List.map_id _)
  · exact List.filter_eq_self.mpr fun l hl => by simpa using hnone l hl

/-- A call that changes no layer that there is leaves the layers, or adds one without stretches. -/
theorem redraw_of_not_redraws {c : Canvas} (h : redraws c call = false) :
    Canvas.redraw c.layers call = c.layers ∨
      ∃ handle look, Canvas.redraw c.layers call = c.layers ++ [⟨handle, look, []⟩] := by
  cases call with
  | create handle look =>
    cases handle with
    | none => exact Or.inl rfl
    | some handle => exact Or.inr ⟨handle, look, rfl⟩
  | set n stretches =>
    have huses : (Call.set n stretches).uses n = true := by simp [Call.uses]
    exact Or.inl (redraw_of_unknown huses (by simpa [redraws] using h))
  | dispose n =>
    have huses : (Call.dispose n).uses n = true := by simp [Call.uses]
    exact Or.inl (redraw_of_unknown huses (by simpa [redraws] using h))

/-- What is shown need not be computed again after a call that redraws nothing. -/
theorem spansOf_of_not_redraws {c : Canvas} (h : redraws c call = false) (palette : Palette)
    (text : String) :
    spansOf palette text (Canvas.redraw c.layers call) = spansOf palette text c.layers := by
  rcases redraw_of_not_redraws h with hsame | ⟨handle, look, hmore⟩
  · rw [hsame]
  · rw [hmore, spansOf, List.flatMap_append]
    exact List.append_nil _

theorem layers_count (c : Canvas) (call : Call) : (c.count call).layers = c.layers := by
  cases call <;> rfl

theorem palette_redrawn (c : Canvas) (call : Call) (a : TextArea) :
    (redrawn c call a).palette = a.palette := by
  unfold redrawn
  split
  · obtain ⟨_, _, hshow⟩ := a.exists_showLayers_eq (Canvas.redraw c.layers call)
    rw [hshow]
  · rfl

/-- New highlights do not touch the offsets. -/
theorem Ready.sound_redrawn (h : Ready textOf e a) (call : Call) :
    (redrawn e.canvas call a).Sound textOf := by
  unfold redrawn
  split
  · exact h.sound.showLayers _
  · exact h.sound

/-- A selection that is drawn would be of a stretch. -/
theorem Ready.highlights_redrawn (h : Ready textOf e a)
    (hempty : ∀ l ∈ Canvas.redraw e.canvas.layers call, l.stretches = []) :
    (redrawn e.canvas call a).highlights = [] := by
  unfold redrawn
  split
  · obtain ⟨_, _, hshow⟩ := a.exists_showLayers_eq (Canvas.redraw e.canvas.layers call)
    rw [hshow]
    refine List.flatMap_eq_nil_iff.mpr fun l hl => ?_
    rw [hempty l hl, List.map_nil]
  next hredraws =>
    refine h.highlights fun l hl => hempty l ?_
    rcases redraw_of_not_redraws (by simpa using hredraws) with hsame | ⟨_, _, hmore⟩
    · rwa [hsame]
    · rw [hmore]
      exact List.mem_append_left _ hl

/-- An editor that is ready stays so under every call. -/
theorem Ready.receive (h : Ready textOf e a) (call : Call) :
    ∃ b, Ready textOf (e.receive call).1 b := by
  have hcount (c : Canvas) : (c.count call).anonymous = c.anonymous ∧
      (c.count call).refuses = c.refuses := by
    cases call <;> exact ⟨rfl, rfl⟩
  rcases receive_cases h.area call with ⟨fault, _, heq⟩ | heq
  · rw [heq]
    refine ⟨a, h.area, h.sound, (hcount _).1.trans h.named, (hcount _).2.trans h.refuses, ?_⟩
    rw [layers_count]
    exact h.highlights
  · rw [heq]
    refine ⟨_, rfl, h.sound_redrawn call, (hcount _).1.trans h.named, ?_, h.highlights_redrawn⟩
    rw [palette_redrawn]
    exact (hcount _).2.trans h.refuses

/-- What a user does keeps an editor ready, with a text that belongs to its revision. -/
theorem Ready.happens (h : Ready textOf e a) (hhappens : a.Happens b)
    (htext : b.text = textOf b.revision) : Ready textOf { e with content := .typed b } b where
  area := rfl
  sound := h.sound.happens hhappens htext
  named := h.named
  refuses := by rw [hhappens.palette_eq, h.refuses]
  highlights hempty := hhappens.highlights_eq.trans (h.highlights hempty)

/-- Every editor that is reached is ready for calls. -/
theorem Reached.ready (h : e.Reached textOf) : ∃ a, Ready textOf e a := by
  induction h with
  | @start palette h =>
    exact ⟨{ palette }, rfl, (TextArea.Reached.start h).sound, rfl, rfl, fun _ => rfl⟩
  | receive _ _ ih =>
    obtain ⟨a, ha⟩ := ih
    exact ha.receive _
  | happens _ harea hhappens htext ih =>
    obtain ⟨a', ha'⟩ := ih
    obtain rfl := Content.typed.inj (ha'.area.symm.trans harea)
    exact ⟨_, ha'.happens hhappens htext⟩
  | wire _ alive connected ih =>
    obtain ⟨a, ha⟩ := ih
    exact ⟨a, ha.area, ha.sound, ha.named, ha.refuses, ha.highlights⟩

/-- What an editor without layers keeps to while it serves calls and its text stays: what is drawn
is told by the calls, and every handle that is given is greater than all before it. -/
structure Serving (textOf : Nat → String) (made : Nat) (palette : Palette) (text : String)
    (calls : List Call) (e : Editor) (a : TextArea) : Prop where
  ready : Ready textOf e a
  host : a.palette = palette
  same : a.text = text
  inside : ∀ call ∈ calls, call.Inside text
  layers : e.canvas.layers = Call.layersOf calls
  highlights : a.highlights = spansOf palette text (Call.layersOf calls)
  ascending : (made :: Call.given calls).Pairwise (· < ·)
  made : ∀ handle ∈ made :: Call.given calls, handle ≤ e.canvas.made

variable {made : Nat} {palette : Palette} {text : String}

/-- An editor with no layers serves from the start. -/
theorem Serving.start (h : Ready textOf e a) (hempty : e.canvas.layers = []) :
    Serving textOf e.canvas.made a.palette a.text [] e a where
  ready := h
  host := rfl
  same := rfl
  inside _ hcall := by cases hcall
  layers := hempty
  highlights := h.highlights fun l hl => by rw [hempty] at hl; cases hl
  ascending := List.pairwise_singleton _ _
  made handle hhandle := (List.mem_singleton.mp hhandle).le

theorem given_concat (calls : List Call) (call : Call) :
    Call.given (calls ++ [call]) = Call.given calls ++ Call.given [call] := by
  induction calls with
  | nil => rfl
  | cons c rest ih =>
    rcases c with ⟨_ | handle, look⟩ | _ | _
    · exact ih
    · exact congrArg (handle :: ·) ih
    · exact ih
    · exact ih

/-- The handle of a call that fits is new. -/
theorem Serving.ascending_concat (h : Serving textOf made palette text calls e a)
    (hfits : e.Fits call) :
    (made :: Call.given (calls ++ [call])).Pairwise (· < ·) ∧
      ∀ handle ∈ made :: Call.given (calls ++ [call]), handle ≤ (e.canvas.count call).made := by
  rw [given_concat, ← List.cons_append]
  cases call with
  | create handle look =>
    have hnext : handle = some (e.canvas.made + 1) := by
      rw [show handle = e.canvas.nextHandle from hfits, Canvas.nextHandle, h.ready.named]
      rfl
    rw [hnext]
    constructor
    · refine List.pairwise_append.mpr ⟨h.ascending, List.pairwise_singleton _ _, ?_⟩
      intro n hn m hm
      rw [List.mem_singleton.mp hm]
      exact Nat.lt_succ_of_le (h.made n hn)
    · intro n hn
      rcases List.mem_append.mp hn with hn | hn
      · exact Nat.le_succ_of_le (h.made n hn)
      · exact (List.mem_singleton.mp hn).le
  | set handle stretches =>
    rw [Call.given, Call.given, List.append_nil]
    exact ⟨h.ascending, h.made⟩
  | dispose handle =>
    rw [Call.given, Call.given, List.append_nil]
    exact ⟨h.ascending, h.made⟩

/-- A call that is refused leaves everything as it is drawn. -/
theorem Serving.refused (h : Serving textOf made palette text calls e a) {fault : Fault}
    (hrefused : e.receive call = (e', some fault)) :
    Serving textOf made palette text calls e' a := by
  have hready := h.ready.receive call
  rw [hrefused] at hready
  obtain ⟨b, hb⟩ := hready
  rcases receive_cases h.ready.area call with ⟨_, _, heq⟩ | heq
  · rw [hrefused] at heq
    cases heq
    obtain rfl := Content.typed.inj (hb.area.symm.trans h.ready.area)
    have hmade : e.canvas.made ≤ (e.canvas.count call).made := by
      cases call <;> simp [Canvas.count]
    exact ⟨hb, h.host, h.same, h.inside, (layers_count _ _).trans h.layers, h.highlights,
      h.ascending, fun handle hhandle => (h.made handle hhandle).trans hmade⟩
  · rw [hrefused] at heq
    cases heq

/-- What else happens leaves everything that belongs to decorations as it is. -/
theorem Serving.happens (h : Serving textOf made palette text calls e a) (hhappens : a.Happens b)
    (hsame : b.text = a.text) (htext : b.text = textOf b.revision) :
    Serving textOf made palette text calls { e with content := .typed b } b where
  ready := h.ready.happens hhappens htext
  host := hhappens.palette_eq.trans h.host
  same := hsame.trans h.same
  inside := h.inside
  layers := h.layers
  highlights := hhappens.highlights_eq.trans h.highlights
  ascending := h.ascending
  made := h.made

/-- What is drawn after a call that is done, be it drawn anew or not. -/
theorem Serving.drawn (h : Serving textOf made palette text calls e a)
    (hinside : ∀ c ∈ calls ++ [call], c.Inside text) :
    let b := redrawn e.canvas call a
    b.text = text ∧ b.highlights = spansOf palette text (Call.layersOf (calls ++ [call])) ∧
      b.readOnly = a.readOnly ∧ b.position = a.position ∧
      (redraws e.canvas call = true → b.shown =
        (if a.readOnly then [] else [⟨a.position, a.position, .currentLine⟩]) ++ b.highlights) := by
  have hlayers : Canvas.redraw e.canvas.layers call = Call.layersOf (calls ++ [call]) := by
    rw [h.layers, Call.layersOf_concat]
  rw [redrawn]
  cases hredraws : redraws e.canvas call with
  | true =>
    have hspans := h.ready.sound.drawn_eq (Canvas.redraw e.canvas.layers call) <| by
      rw [hlayers, h.same]
      exact fun l hl => Call.inside_layersOf hinside hl
    obtain ⟨taken, snapshots, hshow⟩ :=
      a.exists_showLayers_eq (Canvas.redraw e.canvas.layers call)
    rw [if_pos rfl, hshow]
    refine ⟨h.same, ?_, rfl, rfl, fun _ => rfl⟩
    rw [← hlayers, ← h.same, ← h.host]
    exact hspans
  | false =>
    rw [if_neg Bool.false_ne_true]
    refine ⟨h.same, ?_, rfl, rfl, fun hno => by cases hno⟩
    rw [h.highlights, ← hlayers, spansOf_of_not_redraws hredraws, h.layers]

/-- A call that is done changes what is drawn as it changes the layers; where it goes to a layer
that there is, the line of the caret is drawn with it. -/
theorem Serving.done (h : Serving textOf made palette text calls e a) (hfits : e.Fits call)
    (hinside : call.Inside text) (hdone : e.receive call = (e', none)) :
    ∃ b, Serving textOf made palette text (calls ++ [call]) e' b ∧ b.readOnly = a.readOnly ∧
      b.position = a.position ∧
      (redraws e.canvas call = true → b.shown =
        (if a.readOnly then [] else [⟨a.position, a.position, .currentLine⟩]) ++ b.highlights) := by
  obtain ⟨b, hb⟩ := h.ready.receive call
  have hall : ∀ c ∈ calls ++ [call], c.Inside text := by
    intro c hc
    rcases List.mem_append.mp hc with hc | hc
    · exact h.inside c hc
    · rwa [List.mem_singleton.mp hc]
  obtain ⟨hsame, hhighlights, hreadOnly, hposition, hshown⟩ := h.drawn hall
  obtain ⟨hascending, hmade⟩ := h.ascending_concat hfits
  rw [hdone] at hb
  rcases receive_cases h.ready.area call with ⟨_, _, heq⟩ | heq
  · rw [hdone] at heq
    cases heq
  · rw [hdone] at heq
    cases heq
    obtain rfl := Content.typed.inj hb.area
    refine ⟨_, ⟨hb, (palette_redrawn _ _ _).trans h.host, hsame, hall, ?_, hhighlights, hascending,
      hmade⟩, hreadOnly, hposition, hshown⟩
    rw [Call.layersOf_concat, ← h.layers]

/-- A call to a handle is never refused. -/
theorem Ready.receive_eq (h : Ready textOf e a) {handle : Nat} (huses : call.uses handle = true) :
    e.receive call = ({ e with
      canvas := { e.canvas with layers := Canvas.redraw e.canvas.layers call }
      content := .typed (redrawn e.canvas call a) }, none) := by
  have hgrants : refusal a.palette call = none := by
    obtain ⟨stretches, rfl⟩ | rfl := Call.cases_of_uses huses <;> rfl
  have hcount : e.canvas.count call = e.canvas := by
    obtain ⟨stretches, rfl⟩ | rfl := Call.cases_of_uses huses <;> rfl
  rcases receive_cases h.area call with ⟨_, hrefuses, _⟩ | heq
  · rw [h.refuses, hgrants] at hrefuses
    cases hrefuses
  · rw [hcount] at heq
    exact heq

/-- One more call that fits and lies inside the text, after calls that were served. -/
theorem Serves.concat (h : Serves textOf e calls e') (call : Call)
    (harea : e'.content = .typed a) (hfits : e'.Fits call) (hinside : call.Inside a.text)
    (hdone : (e'.receive call).2 = none) :
    Serves textOf e (calls ++ [call]) (e'.receive call).1 :=
  .done h hfits harea hinside (Prod.ext rfl hdone)

end Editor

end Conceal
