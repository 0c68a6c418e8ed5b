import Conceal.Proofs.Decoration.Lifetime
import Conceal.Proofs.Decoration.Sending

/-!
Operations on decorations that return, on a host that may refuse any call and whatever the cache
holds. What has returned was granted, so its calls and the keys that it leaves are known, and the
same calls would be granted again.
-/

namespace Conceal

/-! ## Desks -/

namespace Desk

/-- What an editor refuses, and whether it keeps its handles to itself. -/
def manners (d : Desk) (name : String) : Option ((Call → Option Fault) × Bool) :=
  (d.editor? name).map fun e => (e.canvas.refuses, e.canvas.anonymous)

/-- Does an editor name its handles? -/
def names (d : Desk) (name : String) : Bool := (d.editor? name).any fun e => !e.canvas.anonymous

/-- The later desk is the one after some calls to an editor, which granted them all. -/
structure Obliged (name : String) (d : Desk) (sent : List Call) (d' : Desk) : Prop where
  redrawn : Redrawn name d d'
  manners : d'.manners name = d.manners name
  calls : d'.calls = (sent.map (name, ·)).reverse ++ d.calls
  granted : ∀ call ∈ sent, d.grants name call = true

variable {d d' d'' : Desk} {name : String} {call : Call} {sent sent' : List Call}

theorem Obliged.grants_eq (h : Obliged name d sent d') : d'.grants name = d.grants name := by
  funext call
  have hsame := congrArg (Option.any fun way => (way.1 call).isNone) h.manners
  rw [Desk.manners, Desk.manners, Option.any_map, Option.any_map] at hsame
  exact hsame

theorem Obliged.names_eq (h : Obliged name d sent d') : d'.names name = d.names name := by
  have hsame := congrArg (Option.any fun way => !way.2) h.manners
  rw [Desk.manners, Desk.manners, Option.any_map, Option.any_map] at hsame
  exact hsame

/-- An editor that has obliged is still there. -/
theorem Obliged.there (h : Obliged name d sent d') (hthere : (d.editor? name).isSome) :
    (d'.editor? name).isSome := by
  have hsame := congrArg Option.isSome h.redrawn.face
  rw [Option.isSome_map, Option.isSome_map] at hsame
  rwa [hsame]

theorem Obliged.refl (name : String) (d : Desk) : Obliged name d [] d :=
  ⟨Redrawn.refl name d, rfl, rfl, by simp⟩

/-- Calls that were obliged, one after the other, are calls that were obliged. -/
theorem Obliged.trans (h : Obliged name d sent d') (h' : Obliged name d' sent' d'') :
    Obliged name d (sent ++ sent') d'' where
  redrawn := h.redrawn.trans h'.redrawn
  manners := h'.manners.trans h.manners
  calls := by simp [h'.calls, h.calls]
  granted := List.forall_mem_append.mpr ⟨h.granted, h.grants_eq ▸ h'.granted⟩

/-- An editor that is replaced by one with the same refusals keeps its manners. -/
theorem manners_change {e e' : Editor} (he : d.editor? name = some e)
    (hcanvas : (e'.canvas.refuses, e'.canvas.anonymous) =
      (e.canvas.refuses, e.canvas.anonymous)) :
    (d.change name fun _ => e').manners name = d.manners name := by
  rw [manners, manners, editor?_change, if_pos rfl, he]
  exact congrArg some hcanvas

/-- A call that has returned was granted. -/
theorem obliged_send (hthere : (d.editor? name).isSome) (h : send name call d = .ok () d') :
    Obliged name d [call] d' := by
  obtain ⟨e, he⟩ := Option.isSome_iff_exists.mp hthere
  have hredrawn := redrawn_change he (e.face_receive call)
  have hmanners : (d.change name fun _ => (e.receive call).1).manners name = d.manners name :=
    manners_change he (by
      rw [e.canvas_receive, Canvas.refuses_receive, Canvas.anonymous_receive])
  have hgranted : e.canvas.refuses call = none := by
    obtain ⟨_, -, -, hsend⟩ := send_eq he call
    cases hrefuses : e.canvas.refuses call with
    | none => rfl
    | some fault =>
      rw [h, hrefuses] at hsend
      cases hsend
  simp only [send, he] at h
  split at h
  · cases h
  · cases h
    refine ⟨⟨hredrawn.others, hredrawn.face⟩, hmanners, rfl, ?_⟩
    simp [grants, he, hgranted]

/-- A call that is granted returns. -/
theorem exists_send (h : d.grants name call = true) : ∃ d', send name call d = .ok () d' := by
  obtain ⟨e, he, hgranted⟩ := Option.any_eq_true _ _ |>.mp h
  obtain ⟨d', -, -, hsend⟩ := send_eq he call
  rw [Option.isNone_iff_eq_none.mp hgranted] at hsend
  exact ⟨d', hsend⟩

/-- Creating that returns has sent one call, and there is a handle if the host names them. -/
theorem obliged_create {look : Look} {handle : Option Nat} (hthere : (d.editor? name).isSome)
    (h : create name look d = .ok handle d') : Obliged name d [.create handle look] d' ∧
      (d.names name = true → handle.isSome) := by
  obtain ⟨e, he⟩ := Option.isSome_iff_exists.mp hthere
  unfold create at h
  rw [Step.bind_of_ok (Step.get_apply d), he] at h
  obtain ⟨_, _, hsend, h⟩ := Step.exists_of_bind_eq_ok h
  cases h
  refine ⟨obliged_send hthere hsend, fun hnames => ?_⟩
  have hnamed : e.canvas.anonymous = false := by simpa [names, he] using hnames
  simp [Canvas.nextHandle, hnamed]

/-- An editor that is asked sends no call. -/
theorem obliged_snapshot (hthere : (d.editor? name).isSome) :
    Obliged name d [] (Step.after (snapshot name) d) := by
  obtain ⟨e, he⟩ := Option.isSome_iff_exists.mp hthere
  have hnoted : (d.note name .document).editor? name = some e := he
  have hredrawn := redrawn_change hnoted e.face_snapshot
  have hafter : Step.after (snapshot name) d =
      (d.note name .document).change name fun _ => e.snapshot.2 := by
    unfold Step.after snapshot
    simp only [he]
  rw [hafter]
  exact ⟨⟨hredrawn.others, hredrawn.face⟩, manners_change hnoted (by rw [e.canvas_snapshot]), rfl,
    by simp⟩

/-- Selections are given exactly where they can be read. -/
theorem selections_eq_ok_iff (hthere : (d.editor? name).isSome) {given : List (Int × Int)} :
    (∃ d', selections name d = .ok given d') ↔ d.ends name = .ok given := by
  obtain ⟨e, he⟩ := Option.isSome_iff_exists.mp hthere
  simp only [selections, he, ends, Option.map_some, Option.getD_some, Editor.face]
  cases e.selections with
  | mk answer e' => cases answer <;> simp

/-- Asking for selections sends no call. -/
theorem obliged_selections {given : List (Int × Int)} (hthere : (d.editor? name).isSome)
    (h : selections name d = .ok given d') : Obliged name d [] d' := by
  obtain ⟨e, he⟩ := Option.isSome_iff_exists.mp hthere
  have hnoted : (d.note name .selections).editor? name = some e := he
  have hredrawn := redrawn_change hnoted e.face_selections
  have hmanners : ((d.note name .selections).change name fun _ => e.selections.2).manners name =
      d.manners name := manners_change hnoted (by rw [e.canvas_selections])
  simp only [selections, he] at h
  split at h
  next heq =>
    rw [heq] at hredrawn hmanners
    cases h
    exact ⟨⟨hredrawn.others, hredrawn.face⟩, hmanners, rfl, by simp⟩
  · cases h

end Desk

/-! ## Decorations -/

namespace Decorations

/-- The decorations are on an editor that is there. -/
structure Stands (d : Decorations) (host : String) : Prop where
  there : (d.desk.editor? host).isSome
  host : d.host = some host

/-- The later decorations are those after some calls to the host, which granted them all. -/
structure Obliged (host : String) (d : Decorations) (sent : List Call) (d' : Decorations) :
    Prop where
  desk : d.desk.Obliged host sent d'.desk
  host : d'.host = d.host

variable {d d' d'' : Decorations} {host key : String} {sent sent' : List Call}

theorem Obliged.stands (h : Obliged host d sent d') (hstands : d.Stands host) : d'.Stands host :=
  ⟨h.desk.there hstands.there, h.host.trans hstands.host⟩

theorem Obliged.refl (host : String) (d : Decorations) : Obliged host d [] d :=
  ⟨Desk.Obliged.refl host d.desk, rfl⟩

theorem Obliged.trans (h : Obliged host d sent d') (h' : Obliged host d' sent' d'') :
    Obliged host d (sent ++ sent') d'' :=
  ⟨h.desk.trans h'.desk, h'.host.trans h.host⟩

/-- An operation on the desk leaves everything but the desk. -/
theorem onDesk_eq_ok {α : Type} {act : Step Desk α} {a : α} (h : onDesk act d = .ok a d') :
    ∃ desk, act d.desk = .ok a desk ∧ d' = { d with desk } := by
  unfold onDesk Step.on at h
  cases hact : act d.desk with
  | ok a' desk =>
    rw [hact] at h
    cases h
    exact ⟨desk, rfl, rfl⟩
  | error fault desk =>
    rw [hact] at h
    cases h

/-- A call that returns is sent, and all handles stay. -/
theorem obliged_send (h : d.Stands host) {call : Call}
    (hok : onDesk (Desk.send host call) d = .ok () d') :
    Obliged host d [call] d' ∧ d'.handles = d.handles := by
  obtain ⟨desk, hsend, rfl⟩ := onDesk_eq_ok hok
  exact ⟨⟨Desk.obliged_send h.there hsend, rfl⟩, rfl⟩

/-- A key that was asked for is there, with a handle if the host names it; no other key changes. -/
theorem obliged_getOrCreate (h : d.Stands host) {look : Look} {handle : Option Nat}
    (hok : getOrCreate key look d = .ok handle d') :
    ∃ created, Obliged host d created d' ∧ (∀ c ∈ created, ∃ handle look, c = .create handle look) ∧
      (∀ k, k ∈ d'.keys ↔ k = key ∨ k ∈ d.keys) ∧
      (d.desk.names host = true → (d'.handle? key).isSome) ∧
      ∀ k ≠ key, d'.handle? k = d.handle? k := by
  unfold getOrCreate at hok
  rw [Step.bind_of_ok (Step.get_apply d)] at hok
  simp only [h.host] at hok
  cases hhandle : d.handle? key with
  | some known =>
    simp only [hhandle] at hok
    cases hok
    refine ⟨[], Obliged.refl host d, by simp, fun k => ⟨Or.inr, ?_⟩, by simp [hhandle],
      fun _ _ => rfl⟩
    exact fun hk => hk.elim (fun heq => heq ▸ mem_keys_of_handle? hhandle) id
  | none =>
    simp only [hhandle] at hok
    -- a new key is entered with what the host answered, a handle or nothing
    obtain ⟨made, d₁, hcreate, hrest⟩ := Step.exists_of_bind_eq_ok hok
    obtain ⟨desk, hmade, rfl⟩ := onDesk_eq_ok hcreate
    obtain ⟨hobliged, hnamed⟩ := Desk.obliged_create h.there hmade
    injection hrest with hanswer hd
    subst hanswer hd
    refine ⟨[.create made look], ⟨hobliged, rfl⟩, by simp, fun k => ?_, fun hnames => ?_,
      fun k hk => ?_⟩
    · show k ∈ (insertHandle d.handles key made).map (·.1) ↔ k = key ∨ k ∈ d.handles.map (·.1)
      rw [keys_insertHandle]
      split
      next hmem => exact ⟨Or.inr, fun hk => hk.elim (fun heq => heq ▸ hmem) id⟩
      · rw [List.mem_append, List.mem_singleton, or_comm]
    · simpa [handle?, lookup_insertHandle] using hnamed hnames
    · simp [handle?, lookup_insertHandle, hk]

/-- A key without a handle is given no stretches. -/
theorem obliged_render (h : d.Stands host) {stretches : List Stretch}
    (hok : render key stretches d = .ok () d') :
    ∃ given, Obliged host d given d' ∧ d'.handles = d.handles ∧
      ∀ handle, d.handle? key = some handle → given = [.set handle stretches] := by
  unfold render at hok
  rw [Step.bind_of_ok (Step.get_apply d)] at hok
  simp only [h.host] at hok
  cases hhandle : d.handle? key with
  | none =>
    simp only [hhandle] at hok
    cases hok
    exact ⟨[], Obliged.refl host d, rfl, by simp⟩
  | some handle =>
    simp only [hhandle] at hok
    obtain ⟨hobliged, hhandles⟩ := obliged_send h hok
    refine ⟨_, hobliged, hhandles, fun other hother => ?_⟩
    rw [Option.some.inj hother]

/-! ## Removing keys -/

/-- Evicting that returns has emptied the layer and disposed of it, and its key is gone. -/
theorem obliged_evict (h : d.Stands host) (hok : evict key d = .ok () d') :
    Obliged host d ((d.handle? key).toList.flatMap removal) d' ∧
      d'.handles = d.handles.filter (·.1 != key) := by
  have hhandles := handles_evict key d
  rw [Step.after_of_ok hok] at hhandles
  refine ⟨?_, hhandles⟩
  let without : Decorations := ⟨d.desk, some host, d.handles.filter (·.1 != key)⟩
  have hwithout : without.Stands host := ⟨h.there, rfl⟩
  have hbefore : Obliged host d [] without := ⟨Desk.Obliged.refl host d.desk, h.host.symm⟩
  unfold evict at hok
  rw [Step.bind_of_ok (Step.get_apply d),
    Step.bind_of_ok (Step.set_apply d { d with handles := d.handles.filter (·.1 != key) })] at hok
  simp only [h.host] at hok
  cases hhandle : d.handle? key with
  | none =>
    simp only [hhandle] at hok
    cases hok
    exact hbefore
  | some handle =>
    simp only [hhandle] at hok
    obtain ⟨_, d₁, hset, hdispose⟩ := Step.exists_of_bind_eq_ok hok
    obtain ⟨hobliged₁, -⟩ := obliged_send hwithout hset
    obtain ⟨hobliged₂, -⟩ := obliged_send (hobliged₁.stands hwithout) hdispose
    simpa [removal] using hbefore.trans (hobliged₁.trans hobliged₂)

/-- Keys go one after the other, each with its handle. -/
theorem obliged_evictEach {keys : List String} (h : d.Stands host)
    (hok : evictEach keys d = .ok () d') :
    ∃ gone : List Nat, Obliged host d (gone.flatMap removal) d' ∧
      (∀ handle ∈ gone, ∃ key ∈ keys, d.handle? key = some handle) ∧
      d'.handles = d.handles.filter (·.1 ∉ keys) := by
  induction keys generalizing d with
  | nil =>
    cases hok
    exact ⟨[], Obliged.refl host d', by simp, by simp⟩
  | cons key rest ih =>
    obtain ⟨_, d₁, hevict, hrest⟩ := Step.exists_of_bind_eq_ok hok
    obtain ⟨hobliged₁, hhandles₁⟩ := obliged_evict h hevict
    obtain ⟨gone, hobliged₂, hgone, hhandles₂⟩ := ih (hobliged₁.stands h) hrest
    refine ⟨(d.handle? key).toList ++ gone, ?_, fun handle hmem => ?_, ?_⟩
    · rw [List.flatMap_append]
      exact hobliged₁.trans hobliged₂
    · rcases List.mem_append.mp hmem with hmem | hmem
      · exact ⟨key, List.mem_cons_self, Option.mem_toList.mp hmem⟩
      · obtain ⟨k, hk, hhandle⟩ := hgone handle hmem
        -- the key that went first has no handle any more
        have hne : k ≠ key := by
          rintro rfl
          have hmem := mem_handles_of_handle? hhandle
          rw [hhandles₁] at hmem
          simp at hmem
        rw [handle?, hhandles₁, lookup_filter_ne _ hne] at hhandle
        exact ⟨k, List.mem_cons_of_mem _ hk, hhandle⟩
    · rw [hhandles₂, hhandles₁, List.filter_filter]
      refine List.filter_congr fun s _ => ?_
      rw [Bool.eq_iff_iff]
      simp [and_comm]

/-- Exactly the keys that may stay are left. -/
theorem obliged_evictAllExcept {keep evicted : List String} (h : d.Stands host)
    (hok : evictAllExcept keep d = .ok evicted d') :
    ∃ gone : List Nat, Obliged host d (gone.flatMap removal) d' ∧
      (∀ handle ∈ gone, ∃ key ∉ keep, d.handle? key = some handle) ∧
      d'.handles = d.handles.filter (·.1 ∈ keep) := by
  unfold evictAllExcept at hok
  rw [Step.bind_of_ok (Step.get_apply d)] at hok
  obtain ⟨_, d₁, heach, hok⟩ := Step.exists_of_bind_eq_ok hok
  cases hok
  obtain ⟨gone, hobliged, hgone, hhandles⟩ := obliged_evictEach h heach
  refine ⟨gone, hobliged, fun handle hmem => ?_, ?_⟩
  · obtain ⟨key, hkey, hhandle⟩ := hgone handle hmem
    exact ⟨key, by simpa using (List.mem_filter.mp hkey).2, hhandle⟩
  · rw [hhandles]
    refine List.filter_congr fun s hs => ?_
    have hkey : s.1 ∈ d.keys := List.mem_map_of_mem hs
    simp [hkey]

/-- A book that was filtered by key has the keys that were let through. -/
theorem mem_keys_of_filter {keep : List String} (h : d'.handles = d.handles.filter (·.1 ∈ keep)) :
    key ∈ d'.keys ↔ key ∈ d.keys ∧ key ∈ keep := by
  simp only [keys, h, List.mem_map, List.mem_filter, decide_eq_true_eq]
  constructor
  · rintro ⟨s, ⟨hs, hkeep⟩, rfl⟩
    exact ⟨⟨s, hs, rfl⟩, hkeep⟩
  · rintro ⟨⟨s, hs, rfl⟩, hkeep⟩
    exact ⟨s, ⟨hs, hkeep⟩, rfl⟩

/-- A key that may stay keeps its handle. -/
theorem handle?_of_filter {keep : List String} (h : d'.handles = d.handles.filter (·.1 ∈ keep))
    (hkey : key ∈ keep) : d'.handle? key = d.handle? key := by
  rw [handle?, h, lookup_filter (p := (· ∈ keep)) _ (decide_eq_true hkey), handle?]

/-! ## Nothing to be done -/

/-- Asking for a layer that is there gives its handle and calls nobody. -/
theorem getOrCreate_of_handle {handle : Nat} {look : Look} (hhost : d.host = some host)
    (hkey : d.handle? key = some handle) : getOrCreate key look d = .ok (some handle) d := by
  unfold getOrCreate
  rw [Step.bind_of_ok (Step.get_apply d)]
  simp only [hhost, hkey]
  rfl

/-- Drawing a layer that is there returns, if its editor grants the call. -/
theorem exists_render {handle : Nat} {stretches : List Stretch} (hhost : d.host = some host)
    (hkey : d.handle? key = some handle)
    (hgranted : d.desk.grants host (.set handle stretches) = true) :
    ∃ d', render key stretches d = .ok () d' := by
  obtain ⟨desk, hsend⟩ := Desk.exists_send hgranted
  unfold render
  rw [Step.bind_of_ok (Step.get_apply d)]
  simp only [hhost, hkey]
  exact ⟨_, Step.on_of_ok hsend⟩

/-- With no key in excess nothing is removed. -/
theorem evictAllExcept_of_subset {keep : List String} (h : ∀ key ∈ d.keys, key ∈ keep) :
    evictAllExcept keep d = .ok [] d := by
  have hnone : d.keys.filter (fun key => !keep.contains key) = [] := by
    simpa [List.filter_eq_nil_iff] using h
  unfold evictAllExcept
  rw [Step.bind_of_ok (Step.get_apply d), hnone]
  rfl

end Decorations

end Conceal
