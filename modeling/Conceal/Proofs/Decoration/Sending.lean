import Conceal.Decoration.Cache
import Conceal.Proofs.Editor.Face
import Mathlib.Data.List.Basic

/-!
The calls that operations on decorations send to a host that grants them all, whatever the cache
holds: a key without a handle gets one by a creation, a key with a handle is given its stretches by
one call, and a removed key is emptied and disposed of. Main statements: one for each operation.
-/

namespace Conceal.Decorations

/-- The decorations are on an editor that grants every call. -/
structure Serves (d : Decorations) (host : String) : Prop where
  willing : ∃ e, d.desk.editor? host = some e ∧ e.canvas.Willing
  host : d.host = some host

/-- The later decorations are those after some calls to the host, which keeps its face. -/
structure Sends (host : String) (d : Decorations) (sent : List Call) (d' : Decorations) : Prop where
  serves : d'.Serves host
  calls : d'.desk.calls = (sent.map (host, ·)).reverse ++ d.desk.calls
  redrawn : Desk.Redrawn host d.desk d'.desk

variable {d : Decorations} {host : String}

theorem Sends.refl (h : d.Serves host) : Sends host d [] d := ⟨h, rfl, Desk.Redrawn.refl _ _⟩

/-- Calls sent one after the other are calls sent, in this order. -/
theorem Sends.trans {d' d'' : Decorations} {sent sent' : List Call} (h : Sends host d sent d')
    (h' : Sends host d' sent' d'') : Sends host d (sent ++ sent') d'' where
  serves := h'.serves
  calls := by simp [h'.calls, h.calls]
  redrawn := h.redrawn.trans h'.redrawn

/-- An editor that serves holds the layers that its calls have made. -/
theorem Serves.holds (h : d.Serves host) :
    ∃ made layers, d.desk.Holds host made layers d.desk.calls := by
  obtain ⟨e, he, hw⟩ := h.willing
  exact ⟨e.canvas.made, e.canvas.layers, rfl, e, he, hw, rfl, rfl⟩

/-- The desk after some calls, for the same keys. -/
theorem Serves.sends (h : d.Serves host) {desk : Desk} {made : Nat} {layers : List Layer}
    {sent : List Call}
    (hholds : desk.Holds host made layers ((sent.map (host, ·)).reverse ++ d.desk.calls))
    (hredrawn : Desk.Redrawn host d.desk desk) : Sends host d sent { d with desk } := by
  obtain ⟨hcalls, e, he, hw, _⟩ := hholds
  exact ⟨⟨⟨e, he, hw⟩, h.host⟩, hcalls, hredrawn⟩

/-- A call is sent and done. -/
theorem Serves.send (h : d.Serves host) (call : Call) :
    ∃ desk, Desk.send host call d.desk = .ok () desk ∧ Sends host d [call] { d with desk } := by
  obtain ⟨made, layers, hholds⟩ := h.holds
  obtain ⟨desk, hsend, hredrawn, hholds'⟩ := hholds.send call
  exact ⟨desk, hsend, h.sends hholds' hredrawn⟩

theorem handle?_of_handles {d' : Decorations} (h : d'.handles = d.handles) (key : String) :
    d'.handle? key = d.handle? key := by
  rw [handle?, h, handle?]

theorem Sends.of_handles {d' : Decorations} {sent : List Call} (h : Sends host d sent d')
    (handles : List (String × Option Nat)) : Sends host d sent { d' with handles } :=
  ⟨⟨h.serves.willing, h.serves.host⟩, h.calls, h.redrawn⟩

/-- A key stands for what was inserted for it last. -/
theorem lookup_insertHandle (handles : List (String × Option Nat)) (key k : String)
    (handle : Option Nat) :
    (insertHandle handles key handle).lookup k =
      if k = key then some handle else handles.lookup k := by
  induction handles with
  | nil =>
    rw [insertHandle, List.lookup_cons]
    by_cases h : k = key
    · simp [h]
    · simp [h, beq_eq_false_iff_ne.mpr h]
  | cons s rest ih =>
    obtain ⟨k', old⟩ := s
    rw [insertHandle]
    split
    next heq =>
      subst heq
      rw [List.lookup_cons, List.lookup_cons]
      by_cases h : k = k'
      · simp [h]
      · simp [h, beq_eq_false_iff_ne.mpr h]
    next hne =>
      rw [List.lookup_cons, List.lookup_cons]
      by_cases h : k = k'
      · simp [h, hne]
      · simpa [beq_eq_false_iff_ne.mpr h] using ih

/-- A key has a handle afterwards, made by one call where it had none; no other handle changes. -/
theorem Serves.getOrCreate (h : d.Serves host) (key : String) (look : Look) :
    ∃ handle created d', getOrCreate key look d = .ok (some handle) d' ∧ Sends host d created d' ∧
      created = (if d.handle? key = some handle then [] else [.create (some handle) look]) ∧
      d'.handle? key = some handle ∧ ∀ k ≠ key, d'.handle? k = d.handle? k := by
  unfold Decorations.getOrCreate
  simp only [Step.bind_of_ok (Step.get_apply d), h.host]
  cases hhandle : d.handle? key with
  | some handle =>
    refine ⟨handle, [], d, rfl, Sends.refl h, ?_, hhandle, fun _ _ => rfl⟩
    rw [if_pos rfl]
  | none =>
    obtain ⟨e, he, hw⟩ := h.willing
    obtain ⟨desk, hsend, hsends⟩ := h.send (.create (some (e.canvas.made + 1)) look)
    have hcreate : Desk.create host look d.desk = .ok (some (e.canvas.made + 1)) desk := by
      unfold Desk.create
      simp only [Step.bind_of_ok (Step.get_apply d.desk), he, Option.bind_some, hw.nextHandle]
      exact Step.bind_of_ok hsend
    refine ⟨e.canvas.made + 1, [.create (some (e.canvas.made + 1)) look], _,
      Step.bind_of_ok (Step.on_of_ok hcreate), hsends.of_handles _, ?_, ?_, fun k hk => ?_⟩
    · rw [if_neg (by simp)]
    · simp [handle?, lookup_insertHandle]
    · simp [handle?, lookup_insertHandle, hk]

/-- Drawing a layer that is there sends its stretches and returns. -/
theorem Serves.render (h : d.Serves host) {key : String} {handle : Nat}
    (hkey : d.handle? key = some handle) (stretches : List Stretch) :
    ∃ d', render key stretches d = .ok () d' ∧ Sends host d [.set handle stretches] d' ∧
      d'.handles = d.handles := by
  unfold Decorations.render
  simp only [Step.bind_of_ok (Step.get_apply d), h.host, hkey]
  obtain ⟨desk, hsend, hsends⟩ := h.send (.set handle stretches)
  exact ⟨_, Step.on_of_ok hsend, hsends, rfl⟩

/-! ## Removing keys -/

/-- The calls by which a decoration goes. -/
def removal (handle : Nat) : List Call := [.set handle [], .dispose handle]

/-- Evicting a key returns; it sends what removes its layer, if there is one. -/
theorem Serves.evict (h : d.Serves host) (key : String) :
    ∃ d', evict key d = .ok () d' ∧ Sends host d ((d.handle? key).toList.flatMap removal) d' ∧
      d'.handles = d.handles.filter (·.1 != key) := by
  unfold Decorations.evict
  rw [Step.bind_of_ok (Step.get_apply d),
    Step.bind_of_ok (Step.set_apply d { d with handles := d.handles.filter (·.1 != key) })]
  simp only [h.host]
  have hserves : Serves ⟨d.desk, some host, d.handles.filter (·.1 != key)⟩ host := ⟨h.willing, rfl⟩
  cases d.handle? key with
  | none => exact ⟨_, rfl, ⟨hserves, rfl, Desk.Redrawn.refl _ _⟩, rfl⟩
  | some handle =>
    obtain ⟨desk₁, hset, hsends₁⟩ := hserves.send (.set handle [])
    obtain ⟨desk₂, hdispose, hsends₂⟩ := hsends₁.serves.send (.dispose handle)
    have hsends := hsends₁.trans hsends₂
    refine ⟨_, (Step.bind_of_ok (Step.on_of_ok hset)).trans (Step.on_of_ok hdispose),
      ⟨hsends.serves, hsends.calls, hsends.redrawn⟩, rfl⟩

/-- A key that stays keeps its handle. -/
theorem lookup_filter {p : String → Bool} (handles : List (String × Option Nat)) {k : String}
    (hk : p k = true) : (handles.filter fun s => p s.1).lookup k = handles.lookup k := by
  induction handles with
  | nil => rfl
  | cons s rest ih =>
    obtain ⟨k', handle⟩ := s
    rw [List.filter_cons, List.lookup_cons]
    by_cases h : k = k'
    · subst h
      simp [hk]
    · -- whether the entry goes or not, it is not that of the key
      rw [beq_eq_false_iff_ne.mpr h]
      split
      · rw [List.lookup_cons, beq_eq_false_iff_ne.mpr h, ih]
      · exact ih

theorem lookup_filter_ne (handles : List (String × Option Nat)) {key k : String} (hk : k ≠ key) :
    (handles.filter (·.1 != key)).lookup k = handles.lookup k :=
  lookup_filter (p := (· != key)) handles (bne_iff_ne.mpr hk)

/-- Keys go one after the other, each with its handle; all others keep theirs. -/
theorem Serves.evictEach (h : d.Serves host) (keys : List String) :
    ∃ (gone : List Nat) (d' : Decorations), evictEach keys d = .ok () d' ∧
      Sends host d (gone.flatMap removal) d' ∧
      (∀ handle ∈ gone, ∃ key ∈ keys, d.handle? key = some handle) ∧
      ∀ key ∉ keys, d'.handle? key = d.handle? key := by
  induction keys generalizing d with
  | nil => exact ⟨[], d, rfl, Sends.refl h, by simp, fun _ _ => rfl⟩
  | cons key rest ih =>
    obtain ⟨d₁, hevict, hsends₁, hhandles₁⟩ := h.evict key
    obtain ⟨gone, d₂, hrest, hsends₂, hgone, hkept⟩ := ih hsends₁.serves
    have hother : ∀ k ≠ key, d₁.handle? k = d.handle? k := by
      intro k hk
      rw [handle?, hhandles₁, lookup_filter_ne _ hk, handle?]
    have hsame : d₁.handle? key = none := by
      have hnone : d₁.handles.lookup key = none := by
        rw [List.lookup_eq_none_iff, hhandles₁]
        intro s hs
        exact bne_iff_ne.mpr fun heq => by simp [heq] at hs
      rw [handle?, hnone]
      rfl
    refine ⟨(d.handle? key).toList ++ gone, d₂, (Step.bind_of_ok hevict).trans hrest, ?_, ?_, ?_⟩
    · rw [List.flatMap_append]
      exact hsends₁.trans hsends₂
    · intro handle hmem
      rcases List.mem_append.mp hmem with hmem | hmem
      · exact ⟨key, List.mem_cons_self, Option.mem_toList.mp hmem⟩
      · obtain ⟨k, hk, hhandle⟩ := hgone handle hmem
        -- the key that went first has no handle any more
        have hne : k ≠ key := by
          rintro rfl
          rw [hsame] at hhandle
          cases hhandle
        exact ⟨k, List.mem_cons_of_mem _ hk, (hother k hne).symm.trans hhandle⟩
    · intro k hk
      rw [List.mem_cons, not_or] at hk
      exact (hkept k hk.2).trans (hother k hk.1)

/-- Evicting all but some keys returns; it removes layers of other keys only, and those that are
named stay. -/
theorem Serves.evictAllExcept (h : d.Serves host) (keep : List String) :
    ∃ (evicted : List String) (gone : List Nat) (d' : Decorations),
      evictAllExcept keep d = .ok evicted d' ∧
      Sends host d (gone.flatMap removal) d' ∧
      (∀ handle ∈ gone, ∃ key ∉ keep, d.handle? key = some handle) ∧
      ∀ key ∈ keep, d'.handle? key = d.handle? key := by
  obtain ⟨gone, d', heach, hsends, hgone, hkept⟩ :=
    h.evictEach (d.keys.filter fun key => !keep.contains key)
  refine ⟨d.keys.filter fun key => !keep.contains key, gone, d', ?_, hsends,
    fun handle hmem => ?_, fun key hkey => hkept key ?_⟩
  · unfold Decorations.evictAllExcept
    rw [Step.bind_of_ok (Step.get_apply d), Step.bind_of_ok heach]
    rfl
  · obtain ⟨key, hkey, hhandle⟩ := hgone handle hmem
    refine ⟨key, ?_, hhandle⟩
    simpa using (List.mem_filter.mp hkey).2
  · simp [hkey]

end Conceal.Decorations
