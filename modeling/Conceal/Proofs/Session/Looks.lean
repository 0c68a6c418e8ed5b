import Conceal.Proofs.Session.History

/-!
Which look a layer has. A layer is found by its key alone, so an entry that comes later and has the
key of an earlier one draws on the layer that the earlier one made; it keeps the earlier look. That
is the only way in which a look can be another one.
-/

namespace Conceal.Session

variable {s : Session} {trace : List Application} {name : String} {e : Editor} {l : Layer}

/-- The layers of an editor that is there are attributed. -/
theorem Kept.layer (h : s.Kept trace) (he : s.desk.editor? name = some e) (halive : e.alive)
    (hl : l ∈ e.canvas.layers) : ∃ key, Attributed s.rules trace name key l := by
  by_cases hhost : s.masking.decorations.host = some name
  · have hthere : s.desk.isAlive name = true := by rw [Desk.isAlive, he, Option.any_some, halive]
    obtain ⟨b, hb, hattributed, rfl⟩ := Decorations.Tidy.shows h hhost hthere
    obtain ⟨e', he', _, _, hlayers⟩ := hb.holds.canvas
    obtain rfl : e = e' := Option.some.inj (he.symm.trans he')
    rw [hlayers] at hl
    obtain ⟨layer, hlayer, rfl⟩ := List.mem_map.mp hl
    exact ⟨layer.1, hattributed layer hlayer⟩
  · rw [(h.canvas name e he).2.2 halive hhost] at hl
    cases hl

/-- In every session that is reached, a layer of an editor that is there has a look that the
settings have for some key. Either nothing has given it stretches and it has none, or the last
application that has is of a valid entry of these settings and drew these stretches for that key;
and it drew them with the look of the layer, unless the settings have several looks for that key. -/
theorem look_of_layer (hreached : s.Reached trace) (he : s.desk.editor? name = some e)
    (halive : e.alive) (hl : l ∈ e.canvas.layers) :
    ∃ key, (key, l.look) ∈ looksOf s.rules ∧
      ((l.stretches = [] ∧ ∀ a ∈ trace, ¬ a.Sets name l.handle) ∨
        ∃ before a rest, trace = before ++ a :: rest ∧ a.Sets name l.handle ∧
          (∀ later ∈ rest, ¬ later.Sets name l.handle) ∧ a.entry ∈ entriesOf s.rules ∧
          ∃ d ∈ a.drawing, d.key = key ∧ d.stretches = l.stretches ∧
            (key, d.look) ∈ a.entry.looks ∧
            ((∀ look look', (key, look) ∈ looksOf s.rules → (key, look') ∈ looksOf s.rules →
              look = look') → d.look = l.look)) := by
  obtain ⟨key, hlook, hstretches⟩ := hreached.kept.layer he halive hl
  refine ⟨key, hlook, ?_⟩
  rcases hstretches with ⟨hnone, hempty⟩ | ⟨before, a, rest, heq, hset, hlast, hentry, d, hd, rfl,
    hsame⟩
  · exact Or.inl ⟨hempty, fun a ha hset => hnone ⟨a, ha, hset⟩⟩
  · have hdrawn := Application.mem_looks_of_mem_drawing hd
    have hlast' : ∀ later ∈ rest, ¬ later.Sets name l.handle := fun later hlater hset' =>
      hlast ⟨later, hlater, hset'⟩
    refine Or.inr ⟨before, a, rest, heq, hset, hlast', hentry, d, hd, rfl, hsame, hdrawn,
      fun hunique => ?_⟩
    exact hunique _ _ (looks_subset hentry hdrawn) hlook

/-- The replacement of a letter is drawn by the application that has found it. -/
theorem look_of_letter : ∃ s₀ e l a d,
    start (always letterEntries) (fun _ => none) Desk.twoLetters = .ok s₀ ∧
      (s₀.run opening).desk.editor? "e" = some e ∧ e.alive ∧ l ∈ e.canvas.layers ∧
      a ∈ s₀.trace opening ∧ a.Sets "e" l.handle ∧ d ∈ a.drawing ∧ d.look = l.look ∧
      d.stretches = l.stretches := by
  obtain ⟨s₀, hstart, hready⟩ := exists_started (always letterEntries)
    (fun s₀ => decide (((looksOf (s₀.run opening).rules).map Prod.fst).Nodup ∧
      ∃ e ∈ (s₀.run opening).desk.editor? "e", e.alive = true ∧
        ∃ l ∈ e.canvas.layers, l.stretches ≠ []))
    (by decide +kernel)
  obtain ⟨hkeys, e, he, halive, l, hl, hdrawn⟩ := of_decide_eq_true hready
  obtain ⟨key, _, hlayer⟩ := look_of_layer (reached_of_started hstart opening) he halive hl
  rcases hlayer with ⟨hempty, _⟩ |
    ⟨before, a, rest, htrace, hset, _, _, d, hd, rfl, hsame, _, hlook⟩
  · exact absurd hempty hdrawn
  · refine ⟨s₀, e, l, a, d, hstart, he, halive, hl, ?_, hset, hd, hlook ?_, hsame⟩
    · rw [htrace]
      simp
    · intro look look' hmem hmem'
      exact congrArg Prod.snd (List.inj_on_of_nodup_map hkeys hmem hmem' rfl)

/-- Two entries with one pattern. -/
def twice : List Json :=
  [.obj [("pattern", .str "a"), ("replace", .str "x")],
    .obj [("pattern", .str "a"), ("replace", .str "y")]]

/-- Of two entries with one pattern the second one draws last, and with the look of the first. -/
theorem second_entry_draws_first_look : ∃ s₀ e l a,
    start (always twice) (fun _ => none) Desk.twoLetters = .ok s₀ ∧
      (s₀.run opening).desk.editor? "e" = some e ∧ e.alive ∧ l ∈ e.canvas.layers ∧
      (s₀.trace opening).getLast? = some a ∧ a.Sets "e" l.handle ∧
      ∀ d ∈ a.entry.looks, d.2 ≠ l.look := by
  obtain ⟨s₀, hstart, hready⟩ := exists_started (always twice)
    (fun s₀ => decide (∃ e ∈ (s₀.run opening).desk.editor? "e", e.alive = true ∧
      ∃ l ∈ e.canvas.layers, ∃ a ∈ (s₀.trace opening).getLast?, a.Sets "e" l.handle ∧
        ∀ d ∈ a.entry.looks, d.2 ≠ l.look))
    (by decide +kernel)
  obtain ⟨e, he, halive, l, hl, a, ha, hset, hlooks⟩ := of_decide_eq_true hready
  exact ⟨s₀, e, l, a, hstart, he, halive, hl, ha, hset, hlooks⟩

end Conceal.Session
