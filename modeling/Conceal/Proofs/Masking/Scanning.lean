import Conceal.Proofs.Decoration.Returning
import Conceal.Proofs.Masking.Contact
import Conceal.Proofs.Masking.Rendering

/-!
Applications that fail before they draw. The host may refuse any call, and asking it for its
document or its selections may fail too. Until all decisions about a text are carried out, the only
calls are those that create decorations, and a key is there once its decoration is created, so that
everything that was rendered stays. Main statement: `scan_keeps`.
-/

namespace Conceal

/-! ## Steps that fail -/

namespace Step

/-- A step fails only with such a fault, and in such a state. -/
def FailsIn {σ α : Type} (P : Fault → σ → Prop) (act : Step σ α) : Prop :=
  ∀ s fault s', act s = .error fault s' → P fault s'

section failsIn

variable {σ τ α β : Type} {P : Fault → σ → Prop}

theorem failsIn_pure (a : α) : FailsIn P (pure a : Step σ α) := fun _ _ _ h => by cases h

theorem failsIn_get : FailsIn P (get : Step σ σ) := fun _ _ _ h => by cases h

theorem failsIn_set (s : σ) : FailsIn P (set s : Step σ PUnit) := fun _ _ _ h => by cases h

theorem failsIn_modifyGet (f : σ → α × σ) : FailsIn P (modifyGet f : Step σ α) :=
  fun _ _ _ h => by cases h

/-- Two operations fail as one of them does. -/
theorem FailsIn.bind {x : Step σ α} {f : α → Step σ β} (hx : FailsIn P x)
    (hf : ∀ a, FailsIn P (f a)) : FailsIn P (x >>= f) := by
  intro s fault s'' h
  cases hfirst : x s with
  | ok a s' =>
    rw [bind_of_ok hfirst] at h
    exact hf a s' fault s'' h
  | error fault' s' =>
    rw [bind_of_error hfirst] at h
    obtain ⟨rfl, rfl⟩ := EStateM.Result.error.inj h
    exact hx s _ _ hfirst

/-- An operation on a part fails as the part does, with the rest as it was. -/
theorem FailsIn.on {Q : Fault → τ → Prop} {get : σ → τ} {set : σ → τ → σ} {act : Step τ α}
    (h : FailsIn Q act) (hset : ∀ s fault t, Q fault t → P fault (set s t)) :
    FailsIn P (on get set act) := by
  intro s fault s' hon
  unfold Step.on at hon
  cases hact : act (get s) with
  | ok a t => rw [hact] at hon; cases hon
  | error fault' t =>
    rw [hact] at hon
    cases hon
    exact hset s fault t (h _ _ _ hact)

end failsIn

end Step

/-- A decoration that was created for a key. -/
structure Addition where
  key : String
  handle : Nat
  look : Look

/-- The call that creates it. -/
def Addition.call (f : Addition) : Call := .create (some f.handle) f.look

/-- How it is drawn at first. -/
def Addition.layer (f : Addition) : Layer := ⟨f.handle, f.look, []⟩

/-! ## Desks -/

namespace Desk

variable {host : String} {new new' : List (String × Call)} {made made' : List Addition}
  {d d' d'' : Desk}

/-- The canvas of an editor. -/
def canvas? (d : Desk) (name : String) : Option Canvas := (d.editor? name).map Editor.canvas

/-- No call was made, and no canvas is another. -/
structure Untouched (d d' : Desk) : Prop where
  calls : d'.calls = d.calls
  canvas? : d'.canvas? = d.canvas?

theorem grants_eq_canvas? (d : Desk) (name : String) (call : Call) :
    d.grants name call = (d.canvas? name).any fun c => (c.refuses call).isNone := by
  rw [grants, canvas?, Option.any_map]

theorem names_eq_canvas? (d : Desk) (name : String) :
    d.names name = (d.canvas? name).any fun c => !c.anonymous := by
  rw [names, canvas?, Option.any_map]

/-- Asking for a document touches no canvas. -/
theorem untouched_snapshot (name : String) : Step.Obeys Untouched (snapshot name) := by
  intro d
  cases he : d.editor? name with
  | none =>
    rw [after_snapshot_of_none he]
    exact ⟨rfl, rfl⟩
  | some e =>
    rw [after_snapshot he]
    exact ⟨rfl, funext (map_change (d := d.note name .document) he e.canvas_snapshot)⟩

/-- Asking for selections touches no canvas. -/
theorem untouched_selections (name : String) : Step.Obeys Untouched (selections name) := by
  intro d
  cases he : d.editor? name with
  | none =>
    rw [after_selections_of_none he]
    exact ⟨rfl, rfl⟩
  | some e =>
    rw [after_selections he]
    exact ⟨rfl, funext (map_change (d := d.note name .selections) he e.canvas_selections)⟩

/-- New calls, the newest first, led to the later desk. They all create decorations on one editor,
which has drawn those that it granted on top of its old layers; no other canvas is another. -/
structure Gains (host : String) (new : List (String × Call)) (made : List Addition) (d d' : Desk) :
    Prop where
  calls : d'.calls = new ++ d.calls
  creates : ∀ c ∈ new, ∃ handle look, c = (host, .create (some handle) look)
  granted : new.reverse.filter (fun c => d.grants c.1 c.2) = made.map fun f => (host, f.call)
  grants : d'.grants = d.grants
  names : d'.names host = d.names host
  layers : (d'.canvas? host).map Canvas.layers =
    (d.canvas? host).map fun c => c.layers ++ made.map Addition.layer
  others : ∀ n ≠ host, d'.canvas? n = d.canvas? n

/-- Where no canvas is touched nothing is gained. -/
theorem Untouched.gains (h : Untouched d d') (host : String) : d.Gains host [] [] d' where
  calls := h.calls
  creates := by simp
  granted := rfl
  grants := by
    funext n call
    rw [grants_eq_canvas?, grants_eq_canvas?, h.canvas?]
  names := by rw [names_eq_canvas?, names_eq_canvas?, h.canvas?]
  layers := by simp [h.canvas?]
  others n _ := by rw [h.canvas?]

theorem Gains.refl (host : String) (d : Desk) : d.Gains host [] [] d :=
  Untouched.gains ⟨rfl, rfl⟩ host

/-- What is gained is added up, the earlier layers below the later ones. -/
theorem Gains.trans (h : d.Gains host new made d') (h' : d'.Gains host new' made' d'') :
    d.Gains host (new' ++ new) (made ++ made') d'' where
  calls := by rw [h'.calls, h.calls, List.append_assoc]
  creates := List.forall_mem_append.mpr ⟨h'.creates, h.creates⟩
  granted := by
    have hlater := h'.granted
    rw [h.grants] at hlater
    rw [List.reverse_append, List.filter_append, h.granted, hlater, List.map_append]
  grants := h'.grants.trans h.grants
  names := h'.names.trans h.names
  layers := by
    have hlayers := congrArg (Option.map (· ++ made'.map Addition.layer)) h.layers
    rw [Option.map_map, Option.map_map] at hlayers
    rw [h'.layers]
    simpa [Function.comp_def, List.append_assoc] using hlayers
  others n hn := (h'.others n hn).trans (h.others n hn)

/-- A call that creates a decoration is received, granted or not. -/
theorem gains_send {e : Editor} (he : d.editor? host = some e) {f : Addition}
    (hmade : [(host, f.call)].filter (fun c => d.grants c.1 c.2) =
      made.map fun f => (host, f.call))
    (hlayers : (e.canvas.receive f.call).1.layers = e.canvas.layers ++ made.map Addition.layer)
    {d' : Desk} (hreceived : d.Received d' host f.call)
    (he' : d'.editor? host = some (e.receive f.call).1) (hredrawn : Redrawn host d d') :
    d.Gains host [(host, f.call)] made d' where
  calls := hreceived.calls
  creates := by simp [Addition.call]
  granted := hmade
  grants := hreceived.grants
  names := by
    rw [names, names, he, he', Option.any_some, Option.any_some, e.canvas_receive,
      Canvas.anonymous_receive]
  layers := by
    rw [canvas?, canvas?, he, he', Option.map_some, Option.map_some, e.canvas_receive,
      Option.map_some, Option.map_some, hlayers]
  others n hn := by rw [canvas?, canvas?, hredrawn.others n hn]

/-- An editor that names its decorations creates one, or refuses to. -/
theorem gains_create {e : Editor} (he : d.editor? host = some e)
    (hnamed : e.canvas.anonymous = false) (key : String) (look : Look) :
    let f : Addition := ⟨key, e.canvas.made + 1, look⟩
    ∃ d',
      create host look d = .ok (some f.handle) d' ∧ d.Gains host [(host, f.call)] [f] d' ∨
        ∃ fault, create host look d = .error fault d' ∧ d.Gains host [(host, f.call)] [] d' := by
  intro f
  obtain ⟨d', hreceived, he', hsend⟩ := send_eq he f.call
  -- a handle is numbered before the call is sent, whether or not that is granted
  have hcreate : create host look d =
      (send host f.call >>= fun _ => pure (some f.handle)) d := by
    unfold create
    rw [Step.bind_of_ok (Step.get_apply d), he]
    simp only [Option.bind_some, Canvas.nextHandle, hnamed]
    rfl
  have hredrawn := (contacted_send he f.call).redrawn
  cases hrefuses : e.canvas.refuses f.call with
  | none =>
    rw [hrefuses] at hsend
    rw [Step.after_of_ok hsend] at hredrawn
    have hgrants : d.grants host f.call = true := by simp [grants, he, hrefuses]
    refine ⟨d', Or.inl ⟨?_, gains_send he (by simp [hgrants]) ?_ hreceived he' hredrawn⟩⟩
    · rw [hcreate, Step.bind_of_ok hsend]
      rfl
    · rw [Canvas.receive, hrefuses]
      rfl
  | some fault =>
    rw [hrefuses] at hsend
    rw [Step.after_of_error hsend] at hredrawn
    have hrefused : d.grants host f.call = false := by simp [grants, he, hrefuses]
    refine ⟨d', Or.inr ⟨fault, ?_, gains_send he (by simp [hrefused]) ?_ hreceived he' hredrawn⟩⟩
    · rw [hcreate, Step.bind_of_error hsend]
    · rw [Canvas.receive, hrefuses]
      exact (List.append_nil _).symm

/-- The last call was to draw or to remove a decoration, and the editor refused it. -/
def RefusedDrawing (fault : Fault) (d : Desk) : Prop :=
  ∃ name call rest, d.calls = (name, call) :: rest ∧ (∀ handle look, call ≠ .create handle look) ∧
    (d.canvas? name).bind (·.refuses call) = some fault

/-- A call that creates nothing fails only if it is refused. -/
theorem failsIn_send (name : String) {call : Call}
    (hcall : ∀ handle look, call ≠ .create handle look) :
    Step.FailsIn RefusedDrawing (send name call) := by
  intro d fault d' hsend
  cases he : d.editor? name with
  | none =>
    simp only [send, he] at hsend
    cases hsend
  | some e =>
    obtain ⟨desk, hreceived, he', hsent⟩ := send_eq he call
    rw [hsend] at hsent
    cases hrefuses : e.canvas.refuses call with
    | none => rw [hrefuses] at hsent; cases hsent
    | some fault' =>
      rw [hrefuses] at hsent
      obtain ⟨rfl, rfl⟩ := EStateM.Result.error.inj hsent
      refine ⟨name, call, d.calls, hreceived.calls, hcall, ?_⟩
      rw [canvas?, he', Option.map_some, Option.bind_some, e.canvas_receive,
        Canvas.refuses_receive, hrefuses]

end Desk

/-! ## Decorations -/

namespace Decorations

variable {host : String} {new new' : List (String × Call)} {made made' : List Addition}
  {d d' d'' : Decorations}

/-- Calls have created decorations for keys that had none; these keys are there with their handles,
and all others are as they were. -/
structure Extends (host : String) (new : List (String × Call)) (made : List Addition)
    (d d' : Decorations) : Prop where
  desk : d.desk.Gains host new made d'.desk
  host : d'.host = d.host
  keys : ∀ key, key ∈ d'.keys ↔ key ∈ d.keys ∨ ∃ f ∈ made, f.key = key
  handle? : ∀ key, d'.handle? key =
    (d.handle? key).or ((made.find? (·.key = key)).map Addition.handle)
  missing : ∀ f ∈ made, d.handle? f.key = none
  distinct : (made.map Addition.key).Nodup

/-- Where no canvas is touched the books stay. -/
theorem Extends.of_untouched {desk : Desk} (h : d.desk.Untouched desk) (host : String) :
    Extends host [] [] d { d with desk } where
  host := rfl
  desk := h.gains host
  keys key := by simp [Decorations.keys]
  handle? key := (Option.or_none).symm
  missing := by simp
  distinct := List.nodup_nil

theorem Extends.refl (host : String) (d : Decorations) : Extends host [] [] d d :=
  of_untouched ⟨rfl, rfl⟩ host

/-- Books that were extended and are extended again hold what both times have added. -/
theorem Extends.trans (h : Extends host new made d d') (h' : Extends host new' made' d' d'') :
    Extends host (new' ++ new) (made ++ made') d d'' where
  host := h'.host.trans h.host
  desk := h.desk.trans h'.desk
  keys key := by simp [h'.keys, h.keys, or_assoc, or_and_right, exists_or]
  handle? key := by
    rw [h'.handle?, h.handle?, List.find?_append, Option.map_or, Option.or_assoc]
  missing := List.forall_mem_append.mpr ⟨h.missing, fun f hf => by
    have hmissing := h'.missing f hf
    rw [h.handle?, Option.or_eq_none_iff] at hmissing
    exact hmissing.1⟩
  distinct := by
    rw [List.map_append, List.nodup_append]
    refine ⟨h.distinct, h'.distinct, ?_⟩
    rintro key hkey _ hkey' rfl
    obtain ⟨f, hf, rfl⟩ := List.mem_map.mp hkey
    obtain ⟨f', hf', hsame⟩ := List.mem_map.mp hkey'
    -- the key has a handle already when the second one is created
    have hmissing := h'.missing f' hf'
    rw [h.handle?, Option.or_eq_none_iff, Option.map_eq_none_iff, List.find?_eq_none] at hmissing
    exact hmissing.2 f hf (by simp [hsame])

/-- Where the host names its decorations, some were created and nothing else was done. -/
def Adds (d d' : Decorations) : Prop :=
  ∀ host, d.host = some host → d.desk.names host = true → ∃ new made, Extends host new made d d'

instance : Std.Refl Adds := ⟨fun d host _ _ => ⟨[], [], Extends.refl host d⟩⟩

instance : Trans Adds Adds Adds where
  trans h h' := fun host hhost hnames => by
    obtain ⟨new, made, hfirst⟩ := h host hhost hnames
    obtain ⟨new', made', hsecond⟩ :=
      h' host (hfirst.host.trans hhost) (hfirst.desk.names.trans hnames)
    exact ⟨new' ++ new, made ++ made', hfirst.trans hsecond⟩

/-- An operation that touches no canvas adds nothing. -/
theorem adds_onDesk {α : Type} {act : Step Desk α} (hact : Step.Obeys Desk.Untouched act) :
    Step.Obeys Adds (onDesk act) := by
  intro d host _ _
  rw [onDesk, Step.after_on]
  exact ⟨[], [], Extends.of_untouched (hact d.desk) host⟩

/-- A key gets the handle of the decoration that was created for it. -/
theorem extends_insertHandle {f : Addition} {desk : Desk} (hkey : d.handle? f.key = none)
    (hgains : d.desk.Gains host new [f] desk) :
    Extends host new [f] d
      { d with desk, handles := insertHandle d.handles f.key (some f.handle) } where
  host := rfl
  desk := hgains
  keys key := by
    show key ∈ (insertHandle d.handles f.key (some f.handle)).map (·.1) ↔ _
    rw [keys_insertHandle]
    by_cases hmem : f.key ∈ d.handles.map (·.1)
    · rw [if_pos hmem]
      refine ⟨Or.inl, ?_⟩
      rintro (hold | ⟨f', hf', rfl⟩)
      · exact hold
      · exact List.mem_singleton.mp hf' ▸ hmem
    · rw [if_neg hmem]
      simp [Decorations.keys, eq_comm]
  handle? key := by
    show ((insertHandle d.handles f.key (some f.handle)).lookup key).join = _
    rw [lookup_insertHandle]
    by_cases hsame : key = f.key
    · rw [hsame, hkey]
      simp
    · rw [if_neg hsame]
      simp [Ne.symm hsame, Decorations.handle?]
  missing := by simpa using hkey
  distinct := List.nodup_singleton _

/-- Asking for a layer adds it where it is missing, and otherwise nothing. -/
theorem adds_getOrCreate (key : String) (look : Look) :
    Step.Obeys Adds (getOrCreate key look) := by
  intro d host hhost hnames
  unfold getOrCreate
  rw [Step.after_bind_of_ok (Step.get_apply d)]
  simp only [hhost]
  cases hkey : d.handle? key with
  | some handle => exact ⟨[], [], Extends.refl host d⟩
  | none =>
    obtain ⟨e, he, hnamed⟩ := Option.any_eq_true _ _ |>.mp hnames
    obtain ⟨desk, ⟨hcreate, hgains⟩ | ⟨fault, hcreate, hgains⟩⟩ :=
      Desk.gains_create he (by simpa using hnamed) key look
    · have hcreated : onDesk (Desk.create host look) d =
          .ok (some (e.canvas.made + 1)) { d with desk } := Step.on_of_ok hcreate
      rw [Step.after_bind_of_ok hcreated]
      exact ⟨_, _, extends_insertHandle hkey hgains⟩
    · have hrefused : onDesk (Desk.create host look) d = .error fault { d with desk } :=
        Step.on_of_error hcreate
      rw [Step.after_bind_of_error hrefused]
      have hnothing := Extends.refl host d
      exact ⟨_, [], hgains, rfl, hnothing.keys, hnothing.handle?, hnothing.missing,
        hnothing.distinct⟩

/-- Drawing failed. -/
def RefusedDrawing (fault : Fault) (d : Decorations) : Prop := d.desk.RefusedDrawing fault

/-- What fails on the desk fails for the same reason where it is done by decorations. -/
theorem failsIn_onDesk {α : Type} {act : Step Desk α}
    (hact : Step.FailsIn Desk.RefusedDrawing act) : Step.FailsIn RefusedDrawing (onDesk act) :=
  hact.on fun _ _ _ h => h

/-- Drawing fails only if its call is refused. -/
theorem failsIn_render (key : String) (stretches : List Stretch) :
    Step.FailsIn RefusedDrawing (render key stretches) := by
  refine Step.failsIn_get.bind fun d => ?_
  split
  · exact failsIn_onDesk (Desk.failsIn_send _ (by simp))
  · exact Step.failsIn_pure _

/-- Evicting fails only if one of its calls is refused. -/
theorem failsIn_evict (key : String) : Step.FailsIn RefusedDrawing (evict key) := by
  refine Step.failsIn_get.bind fun d => (Step.failsIn_set _).bind fun _ => ?_
  split
  · exact (failsIn_onDesk (Desk.failsIn_send _ (by simp))).bind fun _ =>
      failsIn_onDesk (Desk.failsIn_send _ (by simp))
  · exact Step.failsIn_pure _

theorem failsIn_evictEach (keys : List String) :
    Step.FailsIn RefusedDrawing (evictEach keys) := by
  induction keys with
  | nil => exact Step.failsIn_pure _
  | cons key rest ih => exact (failsIn_evict key).bind fun _ => ih

/-- Evicting all but some keys fails only if one of its calls is refused. -/
theorem failsIn_evictAllExcept (keep : List String) :
    Step.FailsIn RefusedDrawing (evictAllExcept keep) :=
  Step.failsIn_get.bind fun _ => (failsIn_evictEach _).bind fun _ => Step.failsIn_pure _

end Decorations

/-! ## Masking -/

/-- How editors are asked for their document and their selections. Either can fail; neither makes a
call or changes a canvas. -/
structure Asks where
  snapshot : String → Step Desk (Option Document)
  selections : String → Step Desk (List (Int × Int))
  untouched_snapshot : ∀ name, Step.Obeys Desk.Untouched (snapshot name)
  untouched_selections : ∀ name, Step.Obeys Desk.Untouched (selections name)

/-- How the editors on a desk are asked. -/
def Desk.asks : Asks where
  snapshot := Desk.snapshot
  selections := Desk.selections
  untouched_snapshot := Desk.untouched_snapshot
  untouched_selections := Desk.untouched_selections

namespace Masking

open Decorations

variable {m m' : Masking}

/-- Finds what an application is to draw: the stretches by their keys. Nothing is drawn yet. -/
def scan (asks : Asks) (pattern : Pattern) (mask : Mask) (caretStyle : String) :
    Step Masking (Option (List (String × List Stretch))) := do
  let some editor := (← get).editor? | return none
  let some document ← onDesk (asks.snapshot editor) | return none
  let _ ← onDecorations (getOrCreate pattern.source mask.baseLook)
  let ends ← onDesk (asks.selections editor)
  let text := document.text.toList.toArray
  let found ← carryOut pattern.source (decisions
    { document
      text
      selections := ends.map fun (anchor, active) => orderEnds anchor active
      early := revealsEarly caretStyle
      scopes := (← get).scopes
      mask } [] (pattern.matchesIn text)) [(pattern.source, [])]
  return some found

/-- Draws what was found, and removes all decorations that neither it nor the current update uses.
-/
def finish (found : List (String × List Stretch)) : Step Masking Nat := do
  renderEach (found.drop 1 ++ found.take 1)
  let keep ← noteKeys (found.map (·.1))
  let _ ← onDecorations (evictAllExcept keep)
  return (found.flatMap (·.2)).length

/-- Masks the matches of a pattern; the editors are asked in a given way. -/
def applyWith (asks : Asks) (pattern : Pattern) (mask : Mask) (caretStyle : String) :
    Step Masking Nat := do
  let some editor := (← get).editor? | return 0
  let some document ← onDesk (asks.snapshot editor) | return 0
  let _ ← onDecorations (getOrCreate pattern.source mask.baseLook)
  let ends ← onDesk (asks.selections editor)
  let text := document.text.toList.toArray
  draw pattern.source (decisions
    { document
      text
      selections := ends.map fun (anchor, active) => orderEnds anchor active
      early := revealsEarly caretStyle
      scopes := (← get).scopes
      mask } [] (pattern.matchesIn text))

theorem apply_eq_applyWith : apply = applyWith Desk.asks := rfl

/-- An application scans, and then draws what was found. -/
theorem applyWith_eq (asks : Asks) (pattern : Pattern) (mask : Mask) (caretStyle : String) :
    applyWith asks pattern mask caretStyle = (scan asks pattern mask caretStyle >>= fun found =>
      match found with
      | none => pure 0
      | some found => finish found) := by
  unfold applyWith scan draw finish
  simp only [bind_assoc]
  refine bind_congr fun m => ?_
  cases m.editor? with
  | none => rfl
  | some editor =>
    simp only [bind_assoc]
    refine bind_congr fun document => ?_
    cases document with
    | none => rfl
    | some document => simp only [bind_assoc, pure_bind]

/-! ### Scanning -/

/-- Decorations were created on the host, and nothing else was done but to report. -/
structure Scanned (m m' : Masking) : Prop where
  passKeys : m'.passKeys = m.passKeys
  scopes : m'.scopes = m.scopes
  decorations : m.decorations.Adds m'.decorations

instance : Std.Refl Scanned := ⟨fun _ => ⟨rfl, rfl, Std.Refl.refl _⟩⟩

instance : Trans Scanned Scanned Scanned where
  trans h h' := ⟨h'.passKeys.trans h.passKeys, h'.scopes.trans h.scopes,
    Trans.trans h.decorations h'.decorations⟩

theorem scanned_onDecorations {α : Type} {act : Step Decorations α} (hact : Step.Obeys Adds act) :
    Step.Obeys Scanned (onDecorations act) := by
  intro m
  rw [onDecorations, Step.after_on]
  exact ⟨rfl, rfl, hact m.decorations⟩

theorem scanned_onDesk {α : Type} {act : Step Desk α} (hact : Step.Obeys Desk.Untouched act) :
    Step.Obeys Scanned (onDesk act) :=
  scanned_onDecorations (adds_onDesk hact)

/-- Carrying out decisions creates layers and does nothing else. -/
theorem scanned_carryOut (base : String) (ds : List Decision)
    (found : List (String × List Stretch)) : Step.Obeys Scanned (carryOut base ds found) := by
  induction ds generalizing found with
  | nil => exact Step.obeys_pure _
  | cons d rest ih =>
    cases d with
    | notice n =>
      have hreport : Step.Obeys Scanned (report n) :=
        Step.obeys_modify fun m => ⟨rfl, rfl, Std.Refl.refl m.decorations⟩
      exact hreport.bind fun _ => ih found
    | fail fault => exact Step.obeys_throw fault
    | place p =>
      have hrest := ih (addStretch found (keyOf base p) p.stretch)
      simp only [carryOut]
      cases (found.map (·.1)).contains (keyOf base p) with
      | true => exact hrest
      | false =>
        cases p.own with
        | none => exact hrest
        | some own => exact (scanned_onDecorations (adds_getOrCreate _ _)).bind fun _ => hrest

/-- Looking for matches creates layers and does nothing else. -/
theorem scanned_scan (asks : Asks) (pattern : Pattern) (mask : Mask) (caretStyle : String) :
    Step.Obeys Scanned (scan asks pattern mask caretStyle) := by
  refine Step.obeys_get.bind fun m => ?_
  split
  · exact (scanned_onDesk (asks.untouched_snapshot _)).bind fun document => by
      split
      · exact (scanned_onDecorations (adds_getOrCreate _ _)).bind fun _ =>
          (scanned_onDesk (asks.untouched_selections _)).bind fun ends =>
            Step.obeys_get.bind fun _ =>
              (scanned_carryOut _ _ _).bind fun _ => Step.obeys_pure _
      · exact Step.obeys_pure _
  · exact Step.obeys_pure _

/-! ### Drawing -/

/-- Drawing failed. -/
def RefusedDrawing (fault : Fault) (m : Masking) : Prop := m.decorations.RefusedDrawing fault

theorem failsIn_onDecorations {α : Type} {act : Step Decorations α}
    (hact : Step.FailsIn Decorations.RefusedDrawing act) :
    Step.FailsIn RefusedDrawing (onDecorations act) :=
  hact.on fun _ _ _ h => h

theorem failsIn_renderEach (found : List (String × List Stretch)) :
    Step.FailsIn RefusedDrawing (renderEach found) := by
  induction found with
  | nil => exact Step.failsIn_pure _
  | cons s rest ih => exact (failsIn_onDecorations (failsIn_render _ _)).bind fun _ => ih

/-- What follows on looking for matches fails only if a drawing call is refused. -/
theorem failsIn_finish (found : List (String × List Stretch)) :
    Step.FailsIn RefusedDrawing (finish found) :=
  (failsIn_renderEach _).bind fun _ => (Step.failsIn_modifyGet _).bind fun _ =>
    (failsIn_onDecorations (failsIn_evictAllExcept _)).bind fun _ => Step.failsIn_pure _

/-- Applying an entry fails while it is scanned, or else because the host has refused to draw.
However the editors are asked, also where that fails: until the scan is over, no decoration was
given stretches or disposed of. On a host that names its decorations, all that it had drawn is drawn
as before, every key has the handle that it had, and a key is new only if the decoration for it was
created. The keys of the current update are as they were. -/
theorem scan_keeps (asks : Asks) (pattern : Pattern) (mask : Mask) (caretStyle : String)
    (m : Masking) :
    apply = applyWith Desk.asks ∧
      (∀ fault m', scan asks pattern mask caretStyle m = .error fault m' →
        applyWith asks pattern mask caretStyle m = .error fault m' ∧
          m'.passKeys = m.passKeys ∧ m'.scopes = m.scopes ∧
          ∀ host, m.editor? = some host → m.decorations.desk.names host = true →
            ∃ new made, Extends host new made m.decorations m'.decorations) ∧
      ∀ fault m', applyWith asks pattern mask caretStyle m = .error fault m' →
        scan asks pattern mask caretStyle m = .error fault m' ∨ RefusedDrawing fault m' := by
  refine ⟨apply_eq_applyWith, fun fault m' hscan => ?_, fun fault m' happly => ?_⟩
  · have hscanned := scanned_scan asks pattern mask caretStyle m
    rw [Step.after_of_error hscan] at hscanned
    refine ⟨?_, hscanned.passKeys, hscanned.scopes, hscanned.decorations⟩
    rw [applyWith_eq, Step.bind_of_error hscan]
  · rw [applyWith_eq] at happly
    -- what fails after the scan is a drawing that the host refused
    cases hscan : scan asks pattern mask caretStyle m with
    | error fault' m'' =>
      rw [Step.bind_of_error hscan] at happly
      obtain ⟨rfl, rfl⟩ := EStateM.Result.error.inj happly
      exact Or.inl rfl
    | ok found m'' =>
      rw [Step.bind_of_ok hscan] at happly
      cases found with
      | none => cases happly
      | some found => exact Or.inr (failsIn_finish found _ _ _ happly)

/-- Masking of an editor with a letter on each of two lines, the second of which its scopes do not
know yet. -/
def lagging : Masking where
  decorations :=
    { desk :=
        { editors := [("e",
            { content := .given (some { text := "a\nb" }) [] .null
              canvas := { made := 1, layers := [⟨1, {}, [⟨0, 1, none⟩]⟩] } })] }
      host := some "e"
      handles := [("k", some 1)] }
  scopes := { plain.scopes with document := some { text := "a" } }
  passKeys := some ["k"]

/-- A match cannot be decided after a layer was created: the old layer keeps its handle and its
stretch. -/
theorem lagging_keeps : ∃ m' new made,
    apply letters.pattern letters.mask "line" lagging = .error .outOfRange m' ∧
      m'.passKeys = some ["k"] ∧ Extends "e" new made lagging.decorations m'.decorations ∧
      m'.decorations.handle? "k" = some 1 ∧
      (m'.decorations.desk.canvas? "e").map Canvas.layers =
        some (⟨1, {}, [⟨0, 1, none⟩]⟩ :: made.map Addition.layer) := by
  have houtcome : Step.outcome (scan Desk.asks letters.pattern letters.mask "line") lagging =
      .error .outOfRange := by decide +kernel
  obtain ⟨happly, hfailed, -⟩ := scan_keeps Desk.asks letters.pattern letters.mask "line" lagging
  obtain ⟨hfails, hkeys, -, hextends⟩ := hfailed _ _ (Step.eq_of_outcome_error houtcome)
  obtain ⟨new, made, hextends⟩ := hextends "e" rfl rfl
  refine ⟨_, new, made, happly ▸ hfails, hkeys, hextends, ?_, hextends.desk.layers⟩
  exact hextends.handle? "k"

end Masking

end Conceal
