import Conceal.Proofs.Decoration.Tidy
import Conceal.Proofs.Session.Orders

/-!
What stands behind a layer: the application that gave it its stretches last, and an entry of the
settings that has its key and its look. An application of such an entry keeps that, and so does the
removal of keys. Main statement: `attributed_update`, for whole updates.
-/

namespace Conceal

/-- Does one of the applications give the decoration with a handle stretches? -/
def Drew (trace : List Application) (name : String) (handle : Nat) : Prop :=
  ∃ a ∈ trace, a.Sets name handle

theorem drew_append {trace later : List Application} {name : String} {handle : Nat} :
    Drew (trace ++ later) name handle ↔ Drew trace name handle ∨ Drew later name handle := by
  simp [Drew, or_and_right, exists_or]

theorem drew_singleton {a : Application} {name : String} {handle : Nat} :
    Drew [a] name handle ↔ a.Sets name handle := by
  simp [Drew]

/-- A layer has a look that the rules have for its key. Either no application has given it stretches
and it has none, or the last one that has applied an entry of the rules and drew these stretches for
this key. -/
structure Attributed (rules : List Json) (trace : List Application) (name key : String)
    (l : Layer) : Prop where
  look : (key, l.look) ∈ Session.looksOf rules
  stretches : (¬ Drew trace name l.handle ∧ l.stretches = []) ∨
    ∃ before a rest, trace = before ++ a :: rest ∧ a.Sets name l.handle ∧
      ¬ Drew rest name l.handle ∧ a.entry ∈ Session.entriesOf rules ∧
      ∃ d ∈ a.drawing, d.key = key ∧ d.stretches = l.stretches

/-- All layers of a board are attributed. -/
def Board.Attributed (rules : List Json) (trace : List Application) (b : Board) : Prop :=
  ∀ s ∈ b.slots, Conceal.Attributed rules trace b.host s.1 s.2

variable {rules : List Json} {trace : List Application} {b b' : Board}

/-- A board without layers has nothing to attribute. -/
theorem Board.attributed_of_empty (rules : List Json) (trace : List Application) (b : Board)
    (h : b.slots = []) : b.Attributed rules trace := by
  intro s hs
  rw [h] at hs
  cases hs

/-- Layers that go leave the others attributed. -/
theorem Board.Attributed.of_subset (h : b.Attributed rules trace) (hhost : b'.host = b.host)
    (hslots : ∀ s ∈ b'.slots, s ∈ b.slots) : b'.Attributed rules trace := by
  intro s hs
  rw [hhost]
  exact h s (hslots s hs)

/-- An application that does not touch a layer leaves its attribution as it is. -/
theorem Attributed.later {name key : String} {l l' : Layer} {a : Application}
    (h : Attributed rules trace name key l) (hhandle : l.handle = l'.handle)
    (hlook : l.look = l'.look) (hstretches : l.stretches = l'.stretches)
    (hset : ¬ a.Sets name l'.handle) : Attributed rules (trace ++ [a]) name key l' where
  look := hlook ▸ h.look
  stretches := by
    have hsame := h.stretches
    rw [hhandle, hstretches] at hsame
    -- the last application that drew the layer stays the last one
    rcases hsame with ⟨hnone, hempty⟩ | ⟨before, a', rest, rfl, hset', hlast, hrest⟩
    · refine Or.inl ⟨fun hdrew => ?_, hempty⟩
      rcases drew_append.mp hdrew with hdrew | hdrew
      · exact hnone hdrew
      · exact hset (drew_singleton.mp hdrew)
    · refine Or.inr ⟨before, a', rest ++ [a], by simp, hset', fun hdrew => ?_, hrest⟩
      rcases drew_append.mp hdrew with hdrew | hdrew
      · exact hlast hdrew
      · exact hset (drew_singleton.mp hdrew)

/-- The application of an entry attributes what it draws, and what it makes. -/
theorem Board.Attributed.apply {a : Application} (h : b.Attributed rules trace)
    (hentry : a.entry ∈ Session.entriesOf rules)
    (hbound : ∀ handle, Drew trace b.host handle → handle ≤ b.made) (hsound : b'.Sound)
    (hevolves : b.Evolves a.entry.looks (a.drawing.map Drawn.key) b')
    (hdrawn : ∀ d ∈ a.drawing, ∃ l, (d.key, l) ∈ b'.slots ∧ l.stretches = d.stretches)
    (hsets : ∀ s ∈ b'.slots, a.Sets b.host s.2.handle ↔ s.1 ∈ a.drawing.map Drawn.key) :
    b'.Attributed rules (trace ++ [a]) := by
  intro s hs
  rw [hevolves.host]
  by_cases hkey : s.1 ∈ a.drawing.map Drawn.key
  · -- the layer is drawn by this application
    obtain ⟨d, hd, hdkey⟩ := List.mem_map.mp hkey
    obtain ⟨l, hl, hstretches⟩ := hdrawn d hd
    rw [hdkey] at hl
    obtain rfl := hsound.layer_unique hl hs
    refine ⟨?_, Or.inr ⟨trace, a, [], rfl, (hsets s hs).mpr hkey, by simp [Drew], hentry,
      d, hd, hdkey, hstretches.symm⟩⟩
    rcases hevolves.origin s hs with ⟨k, hk, _, hlook, _⟩ | ⟨_, hlook, _⟩
    · rw [← hlook]
      exact (h _ hk).look
    · exact Session.looks_subset hentry hlook
  · have hset : ¬ a.Sets b.host s.2.handle := mt (hsets s hs).mp hkey
    rcases hevolves.origin s hs with ⟨l, hl, hhandle, hlook, hsame⟩ | ⟨hfresh, hlook, hempty⟩
    · exact (h _ hl).later hhandle hlook (hsame hkey) hset
    · refine ⟨Session.looks_subset hentry hlook, Or.inl ⟨fun hdrew => ?_, hempty hkey⟩⟩
      rcases drew_append.mp hdrew with hdrew | hdrew
      · -- a handle that is made now cannot have been drawn before
        have := hbound _ hdrew
        omega
      · exact hset (drew_singleton.mp hdrew)

namespace Masking

/-- The decorations are tidy and attributed, and their host is there. -/
structure Attributed (rules : List Json) (trace : List Application) (m : Masking) : Prop where
  tidy : m.decorations.Tidy (Drew trace) (Board.Attributed rules trace)
  hosted : ∃ name, m.decorations.host = some name ∧ m.decorations.desk.isAlive name = true

variable {m m' : Masking}

/-- Decorations that are attributed show a board that is. -/
theorem Attributed.shows (h : m.Attributed rules trace) :
    ∃ b, m.decorations.Shows b ∧ b.Attributed rules trace := by
  obtain ⟨name, hhost, halive⟩ := h.hosted
  obtain ⟨b, hb, hattributed, _⟩ := h.tidy.shows hhost halive
  exact ⟨b, hb, hattributed⟩

/-- The host that a board leads from is still there. -/
theorem Leads.hosted {keys : Option (List String)} (h : Leads m m' b' keys)
    (hb : m.decorations.Shows b) (hhost : b'.host = b.host)
    (hhosted : ∃ name, m.decorations.host = some name ∧ m.decorations.desk.isAlive name = true) :
    ∃ name, m'.decorations.host = some name ∧ m'.decorations.desk.isAlive name = true := by
  obtain ⟨name, hname, halive⟩ := hhosted
  refine ⟨name, ?_, ?_⟩
  · rw [h.shows.host, hhost, ← hb.host, hname]
  · rw [Desk.isAlive_congr (h.redrawn.alive_eq name), halive]

/-- Applying an entry of the rules attributes what it draws to this application. -/
theorem Attributed.apply (h : m.Attributed rules trace) {x : Entry}
    (hx : x ∈ Session.entriesOf rules) (caretStyle : String) :
    (Application.after ⟨x, caretStyle, m⟩).Attributed rules (trace ++ [⟨x, caretStyle, m⟩]) := by
  obtain ⟨b, hb, hattributed⟩ := h.shows
  have hbound := h.tidy.bound hb
  obtain ⟨b', hleads, hevolves, hdrawn⟩ := Application.spec ⟨x, caretStyle, m⟩ hb
  obtain ⟨new, hcalls, hhost, hsetbound, hsets⟩ := hevolves.calls
  -- the calls of the application are those that the board has received meanwhile
  have hnew : Application.calls ⟨x, caretStyle, m⟩ = new := by
    refine Application.calls_eq ?_
    rw [hleads.shows.holds.calls, hcalls, hb.holds.calls]
  refine ⟨?_, hleads.hosted hb hevolves.host h.hosted⟩
  refine h.tidy.move hb hleads.shows hevolves.host hevolves.made (hevolves.host ▸ hleads.redrawn)
    (fun name handle hdrew => ?_) ?_
  · refine (drew_append.mp hdrew).imp_right fun hdrew => ?_
    -- what is drawn now is drawn on the host, with a handle that is made by now
    obtain ⟨stretches, hmem⟩ := drew_singleton.mp hdrew
    rw [hnew] at hmem
    obtain rfl : name = b.host := hhost _ hmem
    exact ⟨rfl, hsetbound handle ⟨stretches, hmem⟩⟩
  · refine hattributed.apply hx hbound hleads.shows.sound hevolves hdrawn ?_
    unfold Application.Sets
    rw [hnew]
    exact hsets

/-- Evicting layers leaves the others attributed. -/
theorem Attributed.evict (h : m.Attributed rules trace) (keep : List String) :
    (Step.after (onDecorations (Decorations.evictAllExcept keep)) m).Attributed rules trace := by
  obtain ⟨b, hb, hattributed⟩ := h.shows
  obtain ⟨evicted, hgives⟩ := hb.evictAllExcept keep
  obtain ⟨m', hevict, hleads⟩ := onDecorations_ok hgives
  have hevolves := hb.sound.evolves_keepOnly keep
  rw [Step.after_of_ok hevict]
  -- removing keys draws nothing on the layers that stay
  refine ⟨?_, hleads.hosted hb hevolves.host h.hosted⟩
  refine h.tidy.move hb hleads.shows hevolves.host hevolves.made (hevolves.host ▸ hleads.redrawn)
    (fun _ _ => Or.inl) ?_
  exact hattributed.of_subset hevolves.host fun s hs => (Board.mem_slots_keepOnly.mp hs).1

/-- An update with entries of the rules keeps all layers attributed, whether or not it fails. -/
theorem attributed_update (h : m.Attributed rules trace) (caretStyle : String) {os : List Order}
    (hos : ∀ x, .apply x ∈ os → x ∈ Session.entriesOf rules) :
    (Step.after (update (obey caretStyle os)) m).Attributed rules
      (trace ++ applications caretStyle os { m with passKeys := some [] }) := by
  refine update_induct (P := fun trace m => m.Attributed rules trace)
    (fun trace x m hx h => h.apply (hos x hx) caretStyle) ?_ ?_ (fun trace m keep h => h.evict keep)
    trace h
  · exact fun trace m n h => ⟨h.tidy, h.hosted⟩
  · exact fun trace m keys h => ⟨h.tidy, h.hosted⟩

end Masking

end Conceal
