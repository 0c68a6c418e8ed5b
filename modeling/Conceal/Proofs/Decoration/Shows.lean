import Conceal.Proofs.Decoration.Board
import Conceal.Proofs.Editor.Face
import Mathlib.Tactic.Convert

/-!
The decorations of a host that grants every call, and the board that they show. Every operation on
the decorations does to the board what the board's own operation does, and never fails.
-/

namespace Conceal.Decorations

/-- The decorations are those of a board, and the host's canvas has the board's layers. -/
structure Shows (d : Decorations) (b : Board) : Prop where
  host : d.host = some b.host
  handles : d.handles = b.handles.map fun s => (s.1, some s.2)
  holds : d.desk.Holds b.host b.made (b.slots.map (·.2)) b.calls
  sound : b.Sound

/-- A step gives an answer and leads to a board; the host keeps its face. -/
def Gives {α : Type} (act : Step Decorations α) (d : Decorations) (answer : α) (b : Board) : Prop :=
  ∃ d', act d = .ok answer d' ∧ d'.Shows b ∧ Desk.Redrawn b.host d.desk d'.desk

variable {d : Decorations} {b : Board}

/-- The keys are those of the board. -/
theorem Shows.keys_eq (h : d.Shows b) : d.keys = b.keys := by
  simp [keys, h.handles, Board.handles, Board.keys, Function.comp_def]

/-- A key has the handle of its layer on the board. -/
theorem Shows.handle?_eq (h : d.Shows b) (key : String) :
    d.handle? key = (b.slot? key).map Layer.handle := by
  rw [handle?, h.handles, Board.slot?, Board.handles]
  induction b.slots with
  | nil => rfl
  | cons s rest ih =>
    obtain ⟨k, l⟩ := s
    simp only [List.map_cons, List.lookup_cons]
    split
    · rfl
    · exact ih

/-- A new key is added at the end. -/
theorem insertHandle_of_not_mem {handles : List (String × Option Nat)} {key : String}
    (hkey : key ∉ handles.map (·.1)) (handle : Option Nat) :
    insertHandle handles key handle = handles ++ [(key, handle)] := by
  induction handles with
  | nil => rfl
  | cons s rest ih =>
    rw [List.map_cons, List.mem_cons, not_or] at hkey
    rw [insertHandle, if_neg (Ne.symm hkey.1), ih hkey.2, List.cons_append]

/-- Asking for a layer does on the desk what it does on the board. -/
theorem Shows.getOrCreate (h : d.Shows b) (key : String) (look : Look) :
    ∃ handle, Gives (getOrCreate key look) d handle (b.ensure key look) := by
  unfold Decorations.getOrCreate Gives
  simp only [Step.bind_of_ok (Step.get_apply d), h.host, h.handle?_eq]
  cases hs : b.slot? key with
  | some l =>
    refine ⟨some l.handle, d, rfl, ?_, Desk.Redrawn.refl _ _⟩
    simpa [Board.ensure, hs] using h
  | none =>
    obtain ⟨desk, hsend, hredrawn, hholds⟩ := h.holds.send (.create (some (b.made + 1)) look)
    have hcreate : Desk.create b.host look d.desk = .ok (some (b.made + 1)) desk := by
      obtain ⟨e, he, hw, hmade, _⟩ := h.holds.canvas
      unfold Desk.create
      simp only [Step.bind_of_ok (Step.get_apply d.desk), he, Option.bind_some, hw.nextHandle,
        hmade]
      exact Step.bind_of_ok hsend
    -- the key is new, so its handle comes last, and so does its layer
    have hkey : key ∉ d.handles.map (·.1) := by
      have : d.handles.map (·.1) = b.keys := h.keys_eq
      rw [this]
      exact Board.slot?_eq_none.mp hs
    have hsound := h.sound.ensure key look
    simp only [Board.ensure, hs] at hsound ⊢
    refine ⟨some (b.made + 1), _, Step.bind_of_ok (Step.on_of_ok hcreate), ?_, hredrawn⟩
    refine ⟨h.host, ?_, ?_, hsound⟩
    · show insertHandle d.handles key _ = _
      rw [insertHandle_of_not_mem hkey, h.handles]
      simp [Board.handles]
    · rw [List.map_append]
      exact hholds

/-- Drawing a layer does on the desk what it does on the board. -/
theorem Shows.render (h : d.Shows b) (key : String) (stretches : List Stretch) :
    Gives (render key stretches) d () (b.draw key stretches) := by
  unfold Decorations.render Gives
  simp only [Step.bind_of_ok (Step.get_apply d), h.host, h.handle?_eq]
  cases hs : b.slot? key with
  | none =>
    refine ⟨d, rfl, ?_, Desk.Redrawn.refl _ _⟩
    simpa [Board.draw, hs] using h
  | some l =>
    obtain ⟨desk, hsend, hredrawn, hholds⟩ := h.holds.send (.set l.handle stretches)
    have hl := Board.mem_of_slot? hs
    have hsound := h.sound.draw key stretches
    have hhandles := Board.handles_draw b key stretches
    simp only [Board.draw, hs] at hsound hhandles ⊢
    refine ⟨_, Step.on_of_ok hsend, ⟨h.host, ?_, ?_, hsound⟩, hredrawn⟩
    · rw [hhandles]
      exact h.handles
    · convert hholds using 1
      simp only [Canvas.redraw, List.map_map]
      refine List.map_congr_left fun s hs' => ?_
      -- the call is by handle and the board is by key
      have hiff : s.2.handle = l.handle ↔ s.1 = key := h.sound.handle_eq_iff hs' hl
      by_cases hkey : s.1 = key
      · simp [hkey, hiff.mpr hkey]
      · simp [hkey, mt hiff.mp hkey]

/-- Evicting a key does on the desk what erasing it does on the board. -/
theorem Shows.evict (h : d.Shows b) (key : String) : Gives (evict key) d () (b.erase key) := by
  unfold Decorations.evict Gives
  have hfilter : d.handles.filter (·.1 != key)
      = (b.erase key).handles.map fun s => (s.1, some s.2) := by
    rw [h.handles, Board.handles, Board.handles, Board.slots_erase, List.filter_map,
      List.filter_map]
    rfl
  rw [Step.bind_of_ok (Step.get_apply d),
    Step.bind_of_ok (Step.set_apply d { d with handles := d.handles.filter (·.1 != key) })]
  simp only [h.host, h.handle?_eq]
  have hsound := h.sound.erase key
  cases hs : b.slot? key with
  | none =>
    simp only [Board.erase, hs] at hfilter hsound ⊢
    exact ⟨_, rfl, ⟨rfl, hfilter, h.holds, hsound⟩, Desk.Redrawn.refl _ _⟩
  | some l =>
    obtain ⟨desk, hset, hredrawn, hholds⟩ := h.holds.send (.set l.handle [])
    obtain ⟨desk', hdispose, hredrawn', hholds'⟩ := hholds.send (.dispose l.handle)
    simp only [Board.erase, hs] at hfilter hsound ⊢
    have hfirst : onDesk (Desk.send b.host (.set l.handle []))
        ⟨d.desk, some b.host, d.handles.filter (·.1 != key)⟩
        = .ok () ⟨desk, some b.host, d.handles.filter (·.1 != key)⟩ :=
      Step.on_of_ok hset
    have hthen : onDesk (Desk.send b.host (.dispose l.handle))
        ⟨desk, some b.host, d.handles.filter (·.1 != key)⟩
        = .ok () ⟨desk', some b.host, d.handles.filter (·.1 != key)⟩ :=
      Step.on_of_ok hdispose
    refine ⟨_, (Step.bind_of_ok hfirst).trans hthen, ⟨rfl, hfilter, ?_, hsound⟩,
      hredrawn.trans hredrawn'⟩
    convert hholds' using 1
    -- emptying the layer first makes no difference, since the layer goes
    simp only [Canvas.redraw, List.map_map, List.filter_map]
    have hl := Board.mem_of_slot? hs
    have hiff : ∀ s ∈ b.slots, s.2.handle = l.handle ↔ s.1 = key := fun s hs' =>
      h.sound.handle_eq_iff hs' hl
    have hsame : b.slots.filter (·.1 != key) = b.slots.filter
        ((fun k => k.handle != l.handle) ∘
          (fun k => if k.handle = l.handle then { k with stretches := [] } else k) ∘ (·.2)) := by
      refine List.filter_congr fun s hs' => ?_
      have hhandle : (if s.2.handle = l.handle then { s.2 with stretches := [] } else s.2).handle
          = s.2.handle := by
        split <;> rfl
      rw [Function.comp_apply, Function.comp_apply, hhandle, Bool.eq_iff_iff, bne_iff_ne,
        bne_iff_ne, ne_eq, ne_eq, hiff s hs']
    rw [← hsame]
    refine List.map_congr_left fun s hs' => ?_
    obtain ⟨hmem, hne⟩ := List.mem_filter.mp hs'
    simp [mt (hiff s hmem).mp (bne_iff_ne.mp hne)]

/-! ## Several keys -/

/-- Evicting keys does on the desk what erasing them does on the board. -/
theorem Shows.evictEach (h : d.Shows b) (keys : List String) :
    Gives (evictEach keys) d () (b.eraseAll keys) := by
  induction keys generalizing d b with
  | nil => exact ⟨d, rfl, h, Desk.Redrawn.refl _ _⟩
  | cons key rest ih =>
    obtain ⟨d', hevict, hshows, hredrawn⟩ := h.evict key
    obtain ⟨d'', heach, hshows', hredrawn'⟩ := ih hshows
    have hhost : ((b.erase key).eraseAll rest).host = (b.erase key).host :=
      (hshows.sound.evolves_eraseAll rest).host
    refine ⟨d'', (Step.bind_of_ok hevict).trans heach, hshows', ?_⟩
    exact Desk.Redrawn.trans (hhost ▸ hredrawn) hredrawn'

/-- Evicting all but some keys does on the desk what keeping these does on the board. -/
theorem Shows.evictAllExcept (h : d.Shows b) (keep : List String) :
    ∃ evicted, Gives (evictAllExcept keep) d evicted (b.keepOnly keep) := by
  obtain ⟨d', heach, hshows, hredrawn⟩ :=
    h.evictEach (d.keys.filter fun key => !keep.contains key)
  rw [h.keys_eq] at hshows hredrawn
  refine ⟨d.keys.filter fun key => !keep.contains key, d', ?_, hshows, hredrawn⟩
  unfold Decorations.evictAllExcept
  rw [Step.bind_of_ok (Step.get_apply d), Step.bind_of_ok heach]
  rfl

/-- Clearing does on the desk what erasing all keys does on the board. -/
theorem Shows.clear (h : d.Shows b) : Gives clear d () (b.eraseAll b.keys) := by
  have heach := h.evictEach d.keys
  rw [h.keys_eq] at heach
  unfold Decorations.clear Gives
  rw [Step.bind_of_ok (Step.get_apply d), h.keys_eq]
  exact heach

end Conceal.Decorations
