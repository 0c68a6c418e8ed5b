import Conceal.Proofs.Decoration.Alive

/-!
The lifetime of handles, when editors can refuse any call. Whatever is done with decorations, the
handles that they hold are alive on their host, and calls only go to handles that are alive. Main
statement: `held_alive`.

No operation sends a call twice, so an editor that refuses some calls, and changes its mind about
them between operations, can refuse at any point.
-/

namespace Conceal.Decorations

/-- No key comes twice, and the handles that are held are accounted for. -/
structure Lives (exact : Prop) (past : List Sent) (d : Decorations) : Prop where
  keys : d.keys.Nodup
  held : Accounted exact past d.host d.held d.desk

variable {d d' d'' : Decorations}

theorem Lives.mono {exact exact' : Prop} {past : List Sent} (h : Lives exact past d)
    (hexact : exact' → exact) : Lives exact' past d :=
  ⟨h.keys, h.held.mono hexact⟩

/-! ## Single operations -/

/-- New calls, the newest first, lead from decorations to later ones and leave the handles that are
held accounted for. -/
structure Keeps (new : List (String × Call)) (d d' : Decorations) : Prop where
  calls : d'.desk.calls = new ++ d.desk.calls
  grants : d'.desk.grants = d.desk.grants
  lives : ∀ {exact past}, Lives exact past d →
    Lives (exact ∧ ∀ c ∈ new, d.desk.grants c.1 c.2 = true)
      (past ++ (new.map d.desk.mark).reverse) d'

/-- Something is done without a call. -/
theorem keeps_nil (hdesk : d'.desk = d.desk)
    (hlives : ∀ {exact past}, Lives exact past d → Lives exact past d') : Keeps [] d d' where
  calls := by rw [hdesk]; rfl
  grants := by rw [hdesk]
  lives h := by
    rw [List.map_nil, List.reverse_nil, List.append_nil]
    exact (hlives h).mono And.left

theorem Keeps.refl (d : Decorations) : Keeps [] d d := keeps_nil rfl id

/-- Calls, and then more calls, leave the handles that are held accounted for. -/
theorem Keeps.trans {new new' : List (String × Call)} (h : Keeps new d d')
    (h' : Keeps new' d' d'') : Keeps (new' ++ new) d d'' where
  calls := by rw [h'.calls, h.calls, List.append_assoc]
  grants := h'.grants.trans h.grants
  lives {exact past} hl := by
    have hlater := h'.lives (h.lives hl)
    have hmark : d'.desk.mark = d.desk.mark := by
      funext c
      rw [Desk.mark, Desk.mark, h.grants]
    rw [List.append_assoc, ← List.reverse_append, hmark, ← List.map_append] at hlater
    refine ⟨hlater.keys, hlater.held.mono fun ⟨hexact, hall⟩ => ⟨⟨hexact, ?_⟩, ?_⟩⟩
    · exact fun c hc => hall c (List.mem_append_right _ hc)
    · rw [h.grants]
      exact fun c hc => hall c (List.mem_append_left _ hc)

/-- Some calls lead from decorations to later ones, whose handles are accounted for. -/
def Grows (d d' : Decorations) : Prop := ∃ new, Keeps new d d'

instance : Std.Refl Grows := ⟨fun d => ⟨[], Keeps.refl d⟩⟩

instance : Trans Grows Grows Grows := ⟨fun ⟨new, h⟩ ⟨new', h'⟩ => ⟨new' ++ new, h.trans h'⟩⟩

/-- What sending a call to an editor comes to. -/
theorem onDesk_send {name : String} {e : Editor} (he : d.desk.editor? name = some e)
    (call : Call) :
    ∃ desk, d.desk.Received desk name call ∧ desk.editor? name = some (e.receive call).1 ∧
      (d.desk.grants name call = true ∧
          onDesk (Desk.send name call) d = .ok () { d with desk } ∨
        d.desk.grants name call = false ∧
          ∃ fault, onDesk (Desk.send name call) d = .error fault { d with desk }) := by
  obtain ⟨desk, hreceived, he', hsend⟩ := Desk.send_eq he call
  refine ⟨desk, hreceived, he', ?_⟩
  cases hrefuses : e.canvas.refuses call with
  | none =>
    rw [hrefuses] at hsend
    exact Or.inl ⟨by simp [Desk.grants, he, hrefuses], Step.on_of_ok hsend⟩
  | some fault =>
    rw [hrefuses] at hsend
    exact Or.inr ⟨by simp [Desk.grants, he, hrefuses], fault, Step.on_of_error hsend⟩

/-- The call is received, whether or not it is granted. -/
theorem after_onDesk_send {name : String} {e : Editor} (he : d.desk.editor? name = some e)
    (call : Call) :
    ∃ desk, d.desk.Received desk name call ∧
      Step.after (onDesk (Desk.send name call)) d = { d with desk } := by
  obtain ⟨desk, hreceived, -, ⟨-, hsend⟩ | ⟨-, fault, hsend⟩⟩ := onDesk_send he call
  · exact ⟨desk, hreceived, Step.after_of_ok hsend⟩
  · exact ⟨desk, hreceived, Step.after_of_error hsend⟩

/-- An editor that is not on the desk receives nothing. -/
theorem onDesk_send_absent {name : String} (he : d.desk.editor? name = none) (call : Call) :
    onDesk (Desk.send name call) d = .ok () d := by
  refine Step.on_of_ok (t := d.desk) ?_
  simp only [Desk.send, he]

/-- What creating a decoration on an editor comes to. -/
theorem onDesk_create {name : String} {e : Editor} (he : d.desk.editor? name = some e)
    (look : Look) :
    ∃ desk, d.desk.Received desk name (.create e.canvas.nextHandle look) ∧
      (∀ k, e.canvas.nextHandle = some k →
        ∃ e', desk.editor? name = some e' ∧ k ≤ e'.canvas.made) ∧
      (d.desk.grants name (.create e.canvas.nextHandle look) = true ∧
          onDesk (Desk.create name look) d = .ok e.canvas.nextHandle { d with desk } ∨
        d.desk.grants name (.create e.canvas.nextHandle look) = false ∧
          ∃ fault, onDesk (Desk.create name look) d = .error fault { d with desk }) := by
  obtain ⟨desk, hreceived, he', hsend⟩ := Desk.send_eq he (.create e.canvas.nextHandle look)
  have hcreate : Desk.create name look d.desk =
      (Desk.send name (.create e.canvas.nextHandle look) >>= fun _ =>
        pure e.canvas.nextHandle) d.desk := by
    unfold Desk.create
    rw [Step.bind_of_ok (Step.get_apply d.desk), he]
    rfl
  -- a handle is used up even if its call is refused
  have hmade : (e.receive (.create e.canvas.nextHandle look)).1.canvas.made =
      e.canvas.made + 1 := by
    rw [e.canvas_receive]
    unfold Canvas.receive
    split <;> rfl
  refine ⟨desk, hreceived, fun k hk => ⟨_, he', ?_⟩, ?_⟩
  · exact Nat.le_of_eq ((Desk.made_of_nextHandle hk).trans hmade.symm)
  · cases hrefuses : e.canvas.refuses (.create e.canvas.nextHandle look) with
    | none =>
      rw [hrefuses] at hsend
      refine Or.inl ⟨by simp [Desk.grants, he, hrefuses], Step.on_of_ok ?_⟩
      rw [hcreate, Step.bind_of_ok hsend]
      rfl
    | some fault =>
      rw [hrefuses] at hsend
      refine Or.inr ⟨by simp [Desk.grants, he, hrefuses], fault, Step.on_of_error ?_⟩
      rw [hcreate, Step.bind_of_error hsend]

/-- On an editor that is not on the desk nothing is created. -/
theorem onDesk_create_absent {name : String} (he : d.desk.editor? name = none) (look : Look) :
    onDesk (Desk.create name look) d = .ok none d := by
  have hsend : Desk.send name (.create none look) d.desk = .ok () d.desk := by
    simp only [Desk.send, he]
  refine Step.on_of_ok (t := d.desk) ?_
  unfold Desk.create
  rw [Step.bind_of_ok (Step.get_apply d.desk), he]
  exact Step.bind_of_ok hsend

/-- A handle that is held is on an editor that is there. -/
theorem Lives.editor {exact : Prop} {past : List Sent} (h : Lives exact past d) {host : String}
    (hhost : d.host = some host) {key : String} {handle : Nat}
    (hhandle : d.handle? key = some handle) : ∃ e, d.desk.editor? host = some e := by
  obtain ⟨name, heq, halive⟩ := h.held.alive handle (mem_held_of_handle? hhandle)
  obtain rfl := Option.some.inj (hhost.symm.trans heq)
  obtain ⟨e, he, _⟩ := h.held.orderly.made host handle halive.1
  exact ⟨e, he⟩

/-- Drawing leaves the handles that are held accounted for. -/
theorem grows_render (key : String) (stretches : List Stretch) :
    Step.Obeys Grows (render key stretches) := by
  intro d
  unfold render
  rw [Step.after_bind_of_ok (Step.get_apply d)]
  split
  next host handle hhost hhandle =>
    cases he : d.desk.editor? host with
    | none =>
      rw [Step.after_of_ok (onDesk_send_absent he _)]
      exact ⟨[], Keeps.refl d⟩
    | some e =>
      obtain ⟨desk, hreceived, hafter⟩ := after_onDesk_send he (.set handle stretches)
      rw [hafter]
      refine ⟨[(host, .set handle stretches)], hreceived.calls, hreceived.grants,
        fun {exact past} hl => ⟨hl.keys, ?_⟩⟩
      have hheld : Accounted exact past (some host) d.held d.desk := hhost ▸ hl.held
      have hset := hheld.set (mem_held_of_handle? hhandle) hreceived
        (d.desk.grants host (.set handle stretches))
      show Accounted _ _ d.host d.held desk
      rw [hhost]
      exact hset.mono And.left
  · exact ⟨[], Keeps.refl d⟩

/-- The decorations without a key. -/
def without (d : Decorations) (key : String) : Decorations :=
  { d with handles := d.handles.filter (·.1 != key) }

/-- The handle of a key is held beside those of the others. -/
theorem Lives.without {exact : Prop} {past : List Sent} (h : Lives exact past d) (key : String) :
    (d.without key).keys.Nodup ∧
      Accounted exact past d.host ((d.handle? key).toList ++ (d.without key).held) d.desk :=
  ⟨(List.filter_sublist.map _).nodup h.keys, h.held.perm (perm_filter_ne h.keys key).symm⟩

/-- A handle whose key is gone is emptied and disposed of. -/
theorem grows_dispose {key host : String} {handle : Nat} (hhost : d.host = some host)
    (hhandle : d.handle? key = some handle) :
    Grows d (Step.after (do
      onDesk (Desk.send host (.set handle []))
      onDesk (Desk.send host (.dispose handle))) (d.without key)) := by
  have hheld {exact : Prop} {past : List Sent} (hl : Lives exact past d) :
      Accounted exact past (some host) (handle :: (d.without key).held) d.desk := by
    have := (hl.without key).2
    rwa [hhost, hhandle] at this
  cases he : d.desk.editor? host with
  | none =>
    -- without its editor a handle could not have been made
    have hnothing := onDesk_send_absent (d := d.without key) he
    rw [Step.after_bind_of_ok (hnothing _), Step.after_of_ok (hnothing _)]
    refine ⟨[], keeps_nil rfl fun hl => ?_⟩
    obtain ⟨e, he'⟩ := hl.editor hhost hhandle
    rw [he] at he'
    cases he'
  | some e =>
    obtain ⟨desk, hreceived, he', ⟨-, hset⟩ | ⟨hrefused, fault, hset⟩⟩ :=
      onDesk_send (d := d.without key) he (.set handle [])
    · -- the handle is passed to its disposal, whether or not that is granted
      obtain ⟨desk', hreceived', hafter⟩ :=
        after_onDesk_send (d := { d.without key with desk }) he' (.dispose handle)
      rw [Step.after_bind_of_ok hset, hafter]
      refine ⟨[(host, .dispose handle), (host, .set handle [])], ?_,
        hreceived'.grants.trans hreceived.grants, fun hl => ⟨(hl.without key).1, ?_⟩⟩
      · exact hreceived'.calls.trans (congrArg _ hreceived.calls)
      · have hgone := ((hheld hl).set List.mem_cons_self hreceived
          (d.desk.grants host (.set handle []))).dispose hreceived'
          (d.desk.grants host (.dispose handle))
        rw [List.append_assoc] at hgone
        show Accounted _ _ d.host _ desk'
        rw [hhost]
        exact hgone.mono And.left
    · -- the handle is lost: its key is gone, but it was never passed to a disposal
      rw [Step.after_bind_of_error hset]
      refine ⟨[(host, .set handle [])], hreceived.calls, hreceived.grants,
        fun hl => ⟨(hl.without key).1, ?_⟩⟩
      have hlost := ((hheld hl).set List.mem_cons_self hreceived
        (d.desk.grants host (.set handle []))).drop
      show Accounted _ _ d.host _ desk
      rw [hhost]
      refine hlost.mono fun ⟨_, hall⟩ => ?_
      have hgranted : (d.without key).desk.grants host (.set handle []) = true :=
        hall _ List.mem_cons_self
      rw [hgranted] at hrefused
      cases hrefused

/-- Evicting a key takes its handle off the books, and the others stay accounted for. -/
theorem grows_evict (key : String) : Step.Obeys Grows (evict key) := by
  intro d
  unfold evict
  rw [Step.after_bind_of_ok (Step.get_apply d), Step.after_bind_of_ok (Step.set_apply d _)]
  split
  next host handle hhost hhandle => exact grows_dispose hhost hhandle
  next hnone =>
    refine ⟨[], keeps_nil rfl fun hl => ⟨(hl.without key).1, ?_⟩⟩
    cases hhandle : d.handle? key with
    | none =>
      have hheld := (hl.without key).2
      rwa [hhandle] at hheld
    | some handle =>
      obtain ⟨name, hhost, _⟩ := hl.held.alive handle (mem_held_of_handle? hhandle)
      exact absurd hhandle (hnone name handle hhost)

/-- A key that has no handle gets one, or none; the handle is held beside all others. -/
theorem lives_insertHandle {exact : Prop} {past past' : List Sent} (h : Lives exact past d)
    {key : String} (hkey : d.handle? key = none) (handle : Option Nat) {desk : Desk}
    (hheld : Accounted exact past' d.host (handle.toList ++ d.held) desk) :
    Lives exact past' { d with desk, handles := insertHandle d.handles key handle } where
  keys := by
    show ((insertHandle d.handles key handle).map (·.1)).Nodup
    rw [keys_insertHandle]
    split
    · exact h.keys
    next hnew =>
      rw [List.nodup_append]
      refine ⟨h.keys, by simp, ?_⟩
      rintro k hk k' hk' rfl
      exact hnew (List.mem_singleton.mp hk' ▸ hk)
  held := hheld.perm (perm_insertHandle hkey handle)

/-- A handle that is created for a key is held, and accounted for. -/
theorem grows_getOrCreate (key : String) (look : Look) :
    Step.Obeys Grows (getOrCreate key look) := by
  intro d
  unfold getOrCreate
  rw [Step.after_bind_of_ok (Step.get_apply d)]
  split
  · exact ⟨[], Keeps.refl d⟩
  next host hhost =>
    split
    · exact ⟨[], Keeps.refl d⟩
    next hkey =>
      cases he : d.desk.editor? host with
      | none =>
        rw [Step.after_bind_of_ok (onDesk_create_absent he look)]
        exact ⟨[], keeps_nil rfl fun hl => lives_insertHandle hl hkey none hl.held⟩
      | some e =>
        -- the handle is entered if the call was granted; else the number is skipped
        obtain ⟨desk, hreceived, hmade, ⟨hgrants, hcreate⟩ | ⟨hgrants, fault, hcreate⟩⟩ :=
          onDesk_create he look
        · rw [Step.after_bind_of_ok hcreate]
          refine ⟨[(host, .create e.canvas.nextHandle look)], hreceived.calls, hreceived.grants,
            fun {exact past} hl => lives_insertHandle (hl.mono And.left) hkey _ ?_⟩
          have hheld : Accounted exact past (some host) d.held d.desk := hhost ▸ hl.held
          show Accounted _ (past ++ [⟨host, _, d.desk.grants host _⟩]) d.host _ desk
          rw [hgrants, hhost]
          exact (hheld.createNext he hreceived hmade).mono And.left
        · rw [Step.after_bind_of_error hcreate]
          refine ⟨[(host, .create e.canvas.nextHandle look)], hreceived.calls, hreceived.grants,
            fun hl => ⟨hl.keys, ?_⟩⟩
          have hskip := hl.held.skip hreceived hmade
            (d.desk.grants host (.create e.canvas.nextHandle look)) (by rw [hgrants]; simp)
          exact hskip.mono And.left

/-! ## Several keys -/

theorem grows_evictEach (keys : List String) : Step.Obeys Grows (evictEach keys) := by
  induction keys with
  | nil => exact Step.obeys_pure _
  | cons key rest ih => exact (grows_evict key).bind fun _ => ih

theorem grows_evictAllExcept (keep : List String) :
    Step.Obeys Grows (evictAllExcept keep) :=
  Step.obeys_get.bind fun _ => (grows_evictEach _).bind fun _ => Step.obeys_pure _

theorem grows_clear : Step.Obeys Grows clear :=
  Step.obeys_get.bind fun _ => grows_evictEach _

theorem handles_onDesk {α : Type} (act : Step Desk α) (d : Decorations) :
    (Step.after (onDesk act) d).handles = d.handles := by
  rw [onDesk, Step.after_on]

/-- However evicting ends, the handle of the key is gone from the books, and no other one. -/
theorem handles_evict (key : String) (d : Decorations) :
    (Step.after (evict key) d).handles = d.handles.filter (·.1 != key) := by
  unfold evict
  rw [Step.after_bind_of_ok (Step.get_apply d),
    Step.after_bind_of_ok (Step.set_apply d { d with handles := d.handles.filter (·.1 != key) })]
  split
  next host handle _ _ =>
    have hset := handles_onDesk (Desk.send host (.set handle []))
      { d with handles := d.handles.filter (·.1 != key) }
    cases h : onDesk (Desk.send host (.set handle []))
        { d with handles := d.handles.filter (·.1 != key) } with
    | ok _ d' =>
      rw [Step.after_of_ok h] at hset
      rw [Step.after_bind_of_ok h, handles_onDesk, hset]
    | error fault d' =>
      rw [Step.after_of_error h] at hset
      rw [Step.after_bind_of_error h, hset]
  · rfl

/-- Of several keys that were evicted no handle is held. -/
theorem mem_handles_evictEach {keys : List String} (h : evictEach keys d = .ok () d')
    {s : String × Option Nat} (hs : s ∈ d'.handles) : s ∈ d.handles ∧ s.1 ∉ keys := by
  induction keys generalizing d with
  | nil => cases h; exact ⟨hs, List.not_mem_nil⟩
  | cons key rest ih =>
    unfold evictEach at h
    cases hfirst : evict key d with
    | error fault d₁ => rw [Step.bind_of_error hfirst] at h; cases h
    | ok _ d₁ =>
      rw [Step.bind_of_ok hfirst] at h
      obtain ⟨hmem, hrest⟩ := ih h
      have hhandles := handles_evict key d
      rw [Step.after_of_ok hfirst] at hhandles
      rw [hhandles, List.mem_filter, bne_iff_ne] at hmem
      exact ⟨hmem.1, by simp [hmem.2, hrest]⟩

/-- Nothing is held when all keys were removed. -/
theorem handles_clear (h : clear d = .ok () d') : d'.handles = [] := by
  unfold clear at h
  rw [Step.bind_of_ok (Step.get_apply d)] at h
  rw [List.eq_nil_iff_forall_not_mem]
  intro s hs
  obtain ⟨hmem, hkey⟩ := mem_handles_evictEach h hs
  exact hkey (List.mem_map_of_mem hmem)

theorem grows_setHost (host : Option String) : Step.Obeys Grows (setHost host) := by
  intro d
  unfold setHost
  rw [Step.after_bind_of_ok (Step.get_apply d)]
  split
  · exact ⟨[], Keeps.refl d⟩
  · obtain ⟨new, hclear⟩ := grows_clear d
    cases h : clear d with
    | ok _ d' =>
      rw [Step.after_of_ok h] at hclear
      rw [Step.after_bind_of_ok h]
      -- nothing is held any more, so no handle needs the old host
      have hnone : d'.held = [] := by rw [held, handles_clear h]; rfl
      refine ⟨[] ++ new, hclear.trans (keeps_nil rfl fun hl => ⟨hl.keys, ?_⟩)⟩
      have hheld := hl.held
      rw [hnone] at hheld
      show Accounted _ _ host d'.held d'.desk
      rw [hnone]
      exact hheld.of_nil host
    | error fault d' =>
      rw [Step.after_of_error h] at hclear
      rw [Step.after_bind_of_error h]
      exact ⟨new, hclear⟩

/-! ## Runs -/

/-- What can happen to decorations: what is done with them, and editors that change their mind about
the calls that they refuse. -/
inductive Event where
  | asked (key : String) (look : Look)
  | rendered (key : String) (stretches : List Stretch)
  | evicted (key : String)
  | evictedAllExcept (keep : List String)
  | cleared
  | forgotten
  | moved (host : Option String)
  | changedMind (name : String) (refuses : Call → Option Fault)

/-- What is done about an event. -/
def perform : Event → Step Decorations Unit
  | .asked key look => do let _ ← getOrCreate key look
  | .rendered key stretches => render key stretches
  | .evicted key => evict key
  | .evictedAllExcept keep => do let _ ← evictAllExcept keep
  | .cleared => clear
  | .forgotten => modify forgetAll
  | .moved host => setHost host
  | .changedMind name refuses =>
    modify fun d =>
      { d with desk := d.desk.change name fun e => { e with canvas := { e.canvas with refuses } } }

/-- The decorations after events. An event that fails is over; what it has done stays done. -/
def run (d : Decorations) (events : List Event) : Decorations :=
  events.foldl (fun d e => Step.after (perform e) d) d

/-- The calls that are sent about an event, in order; the editors grant them or not as before it. -/
def sentBy (d : Decorations) (e : Event) : List Sent :=
  let calls := (Step.after (perform e) d).desk.calls
  ((calls.take (calls.length - d.desk.calls.length)).map d.desk.mark).reverse

/-- The calls that are sent about events, in order. -/
def history (d : Decorations) : List Event → List Sent
  | [] => []
  | e :: rest => d.sentBy e ++ history (Step.after (perform e) d) rest

/-- What an event sends is read off the calls on the desk. -/
theorem sentBy_eq {e : Event} (new : List (String × Call))
    (h : (Step.after (perform e) d).desk.calls = new ++ d.desk.calls) :
    d.sentBy e = (new.map d.desk.mark).reverse := by
  simp [sentBy, h]

/-- The handles that are held are accounted for after an event; nothing can be said of others once
handles were forgotten or a call was refused. -/
theorem Lives.after_event {exact : Prop} {past : List Sent} (h : Lives exact past d) (e : Event) :
    Lives (exact ∧ e ≠ .forgotten ∧ ∀ s ∈ d.sentBy e, s.granted = true) (past ++ d.sentBy e)
      (Step.after (perform e) d) := by
  have hgrows (hact : Step.Obeys Grows (perform e)) :
      Lives (exact ∧ e ≠ .forgotten ∧ ∀ s ∈ d.sentBy e, s.granted = true) (past ++ d.sentBy e)
        (Step.after (perform e) d) := by
    obtain ⟨new, hnew⟩ := hact d
    rw [sentBy_eq new hnew.calls]
    refine (hnew.lives h).mono fun ⟨hexact, _, hall⟩ => ⟨hexact, fun c hc => ?_⟩
    exact hall (d.desk.mark c) (List.mem_reverse.mpr (List.mem_map_of_mem hc))
  cases e with
  | asked key look => exact hgrows ((grows_getOrCreate key look).bind fun _ => Step.obeys_pure _)
  | rendered key stretches => exact hgrows (grows_render key stretches)
  | evicted key => exact hgrows (grows_evict key)
  | evictedAllExcept keep =>
    exact hgrows ((grows_evictAllExcept keep).bind fun _ => Step.obeys_pure _)
  | cleared => exact hgrows grows_clear
  | moved host => exact hgrows (grows_setHost host)
  | forgotten =>
    -- nothing is sent, and what was held is not told apart any more from what was lost
    rw [sentBy_eq [] rfl, List.map_nil, List.reverse_nil, List.append_nil]
    exact ⟨List.nodup_nil, List.nodup_nil, fun k hk => (List.not_mem_nil hk).elim, h.held.orderly,
      fun ⟨_, hne, _⟩ => absurd rfl hne⟩
  | changedMind name refuses =>
    rw [sentBy_eq [] rfl, List.map_nil, List.reverse_nil, List.append_nil]
    refine ⟨h.keys, h.held.distinct, h.held.alive, h.held.orderly.of_made_le fun n e he => ?_,
      fun hexact => h.held.complete hexact.1⟩
    show ∃ e', (d.desk.change name _).editor? n = some e' ∧ _
    rw [Desk.editor?_change, he]
    split
    · exact ⟨_, rfl, Nat.le_refl _⟩
    · exact ⟨e, rfl, Nat.le_refl _⟩

/-- What lives before events lives after them; the books are exact as long as nothing was refused
and nothing forgotten. -/
theorem Lives.run {exact : Prop} {past : List Sent} (h : Lives exact past d)
    (events : List Event) :
    Lives (exact ∧ (∀ e ∈ events, e ≠ .forgotten) ∧ ∀ s ∈ d.history events, s.granted = true)
      (past ++ d.history events) (d.run events) := by
  induction events generalizing exact past d with
  | nil =>
    rw [history, List.append_nil]
    exact h.mono And.left
  | cons e rest ih =>
    have hrest := ih (h.after_event e)
    rw [List.append_assoc] at hrest
    refine hrest.mono fun ⟨hexact, hnone, hall⟩ => ⟨⟨hexact, ?_, ?_⟩, ?_, ?_⟩
    · exact hnone e List.mem_cons_self
    · exact fun s hs => hall s (List.mem_append_left _ hs)
    · exact fun e he => hnone e (List.mem_cons_of_mem _ he)
    · exact fun s hs => hall s (List.mem_append_right _ hs)

/-- Without handles and calls all is accounted for. -/
theorem lives_start (desk : Desk) (host : Option String) :
    Lives True [] { desk, host } where
  keys := List.nodup_nil
  held :=
    { distinct := List.nodup_nil
      alive := by simp [held]
      orderly := ⟨by simp [Created], by simp⟩
      complete := fun _ n k hk => by simp [Alive, Created] at hk }

/-- Whatever is done with decorations that hold no handles at first, on editors that may refuse any
call: the handles that are held are all different, were created by the host and were not passed to
a disposal. Calls only go to handles that the editor has created and that were not passed to a
disposal before, so that no handle is passed to a disposal twice. When every call was granted and no
handle was forgotten, the handles that are held are all that were created and not disposed of, on
any editor. -/
theorem held_alive (desk : Desk) (host : Option String) (events : List Event) :
    let start : Decorations := { desk, host }
    let d := start.run events
    let past := start.history events
    d.held.Nodup ∧
      (∀ handle ∈ d.held, ∃ name, d.host = some name ∧ Created past name handle ∧
        ¬ Disposed past name handle) ∧
      (∀ before s later, past = before ++ s :: later → ∀ handle, s.call.uses handle = true →
        Created before s.host handle ∧ ¬ Disposed before s.host handle) ∧
      (∀ name handle,
        (past.filter fun s => s.host = name ∧ s.call = .dispose handle).length ≤ 1) ∧
      ((∀ s ∈ past, s.granted = true) → .forgotten ∉ events → ∀ name handle,
        (d.host = some name ∧ handle ∈ d.held) ↔
          Created past name handle ∧ ¬ Disposed past name handle) := by
  intro start d past
  have hlives := (lives_start desk host).run events
  rw [List.nil_append] at hlives
  refine ⟨hlives.held.distinct, hlives.held.alive, hlives.held.orderly.used,
    hlives.held.orderly.disposed_once, fun hgranted hnone name handle => ⟨?_, ?_⟩⟩
  · rintro ⟨hhost, hmem⟩
    obtain ⟨n, hn, halive⟩ := hlives.held.alive handle hmem
    obtain rfl := Option.some.inj (hhost.symm.trans hn)
    exact halive
  · exact hlives.held.complete ⟨trivial, fun e he heq => hnone (heq ▸ he), hgranted⟩ name handle

end Conceal.Decorations
