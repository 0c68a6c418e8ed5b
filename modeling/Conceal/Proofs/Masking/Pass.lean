import Conceal.Proofs.Masking.Apply

/-!
Updates that apply entries in order. While an update runs, what its entries have drawn so far stays
on the board, and from the first drawing on nothing else is there; so in the end the board bears the
drawings of all entries, whatever was on it before. Main statement: `update_spec`.
-/

namespace Conceal

/-- What is to be done about an entry of the settings. -/
inductive Order where
  | apply (x : Entry)
  /-- The entry is no mask. -/
  | skip
  | fail (fault : Fault)

/-- The keys that entries can have decorations for, with their looks. -/
def Order.looks : List Order → List (String × Look)
  | [] => []
  | .apply x :: rest => x.looks ++ looks rest
  | _ :: rest => looks rest

/-- The board has the drawn decorations and no other. -/
structure Board.Bears (drawing : List Drawn) (b : Board) : Prop where
  keys : ∀ key, key ∈ b.keys ↔ key ∈ drawing.map Drawn.key
  drawn : ∀ d ∈ drawing, ∃ l, (d.key, l) ∈ b.slots ∧ l.stretches = d.stretches

/-- A board that bears a drawing has exactly its looks and stretches, if the looks agree by key. -/
theorem Board.Bears.perm {b : Board} {drawing : List Drawn} (h : b.Bears drawing) (hsound : b.Sound)
    (hkeys : (drawing.map Drawn.key).Nodup)
    (hlook : ∀ s ∈ b.slots, ∀ d ∈ drawing, d.key = s.1 → d.look = s.2.look) :
    (b.slots.map fun s => (s.2.look, s.2.stretches)).Perm
      (drawing.map fun d => (d.look, d.stretches)) := by
  -- with the keys kept, both sides have the same members, once each
  have hkeyed : (b.slots.map fun s => (s.1, s.2.look, s.2.stretches)).Perm
      (drawing.map fun d => (d.key, d.look, d.stretches)) := by
    have hslots : (b.slots.map fun s => (s.1, s.2.look, s.2.stretches)).Nodup := by
      refine List.Nodup.of_map Prod.fst ?_
      rw [List.map_map]
      exact hsound.keys
    have hdrawing : (drawing.map fun d => (d.key, d.look, d.stretches)).Nodup := by
      refine List.Nodup.of_map Prod.fst ?_
      rw [List.map_map]
      exact hkeys
    rw [List.perm_ext_iff_of_nodup hslots hdrawing]
    rintro ⟨key, look, stretches⟩
    constructor
    · intro hmem
      obtain ⟨s, hs, heq⟩ := List.mem_map.mp hmem
      obtain ⟨d, hd, hkey⟩ := List.mem_map.mp ((h.keys s.1).mp (mem_keys.mpr ⟨s.2, hs⟩))
      obtain ⟨l, hl, hstretches⟩ := h.drawn d hd
      rw [hkey] at hl
      rw [hsound.layer_unique hl hs] at hstretches
      refine List.mem_map.mpr ⟨d, hd, ?_⟩
      rw [← heq, hkey, hlook s hs d hd hkey, hstretches]
    · intro hmem
      obtain ⟨d, hd, heq⟩ := List.mem_map.mp hmem
      obtain ⟨l, hl, hstretches⟩ := h.drawn d hd
      refine List.mem_map.mpr ⟨(d.key, l), hl, ?_⟩
      rw [← heq, hlook _ hl d hd rfl, ← hstretches]
  -- the keys are distinct on both sides and may be forgotten now
  have hforget := hkeyed.map Prod.snd
  rwa [List.map_map, List.map_map] at hforget

namespace Masking

/-- Does what is to be done about entries in order; answers with the number of those applied. -/
def obey (caretStyle : String) : List Order → Step Masking Nat
  | [] => return 0
  | .apply x :: rest => do
    let _ ← apply x.pattern x.mask caretStyle
    return 1 + (← obey caretStyle rest)
  | .skip :: rest => do
    report .patternSkipped
    return 0 + (← obey caretStyle rest)
  | .fail fault :: _ => throw fault

/-- What entries draw in order, unless one fails. -/
def drawingsOf (m : Masking) (caretStyle : String) : List Order → Except Fault (List Drawn)
  | [] => .ok []
  | .apply x :: rest => do
    let first ← m.drawingOf caretStyle x
    return first ++ (← drawingsOf m caretStyle rest)
  | .skip :: rest => drawingsOf m caretStyle rest
  | .fail fault :: _ => .error fault

/-- When nothing fails, the first entry and the others have a drawing each. -/
theorem drawingsOf_cons_ok {m : Masking} {caretStyle : String} {x : Entry} {rest : List Order}
    {drawing : List Drawn} (h : m.drawingsOf caretStyle (.apply x :: rest) = .ok drawing) :
    ∃ first later, m.drawingOf caretStyle x = .ok first ∧
      m.drawingsOf caretStyle rest = .ok later ∧ drawing = first ++ later := by
  obtain ⟨first, hfirst, h⟩ := bind_eq_ok.mp h
  obtain ⟨later, hlater, h⟩ := bind_eq_ok.mp h
  exact ⟨first, later, hfirst, hlater, (Except.ok.inj h).symm⟩

/-- What entries without a common key draw has no key twice, and looks that the entries have. -/
theorem nodup_drawingsOf {m : Masking} {caretStyle : String} {os : List Order}
    {drawing : List Drawn} (h : m.drawingsOf caretStyle os = .ok drawing)
    (hkeys : ((Order.looks os).map (·.1)).Nodup) :
    (drawing.map Drawn.key).Nodup ∧ ∀ d ∈ drawing, (d.key, d.look) ∈ Order.looks os := by
  induction os generalizing drawing with
  | nil => cases h; exact ⟨List.nodup_nil, by simp⟩
  | cons o rest ih =>
    cases o with
    | fail fault => cases h
    | skip => exact ih h hkeys
    | apply x =>
      rw [Order.looks, List.map_append, List.nodup_append] at hkeys
      obtain ⟨first, later, hfirst, hlater, rfl⟩ := drawingsOf_cons_ok h
      obtain ⟨hnodup, hlooks⟩ := ih hlater hkeys.2.1
      have hlooks' := fun d hd => mem_looks_of_drawingOf (d := d) hfirst hd
      refine ⟨?_, fun d hd => ?_⟩
      · rw [List.map_append, List.nodup_append]
        -- a key that came twice would be a key of two entries
        refine ⟨nodup_drawingOf hfirst, hnodup, fun key hkey key' hkey' => ?_⟩
        obtain ⟨d, hd, rfl⟩ := List.mem_map.mp hkey
        obtain ⟨d', hd', rfl⟩ := List.mem_map.mp hkey'
        exact hkeys.2.2 _ (List.mem_map_of_mem (hlooks' d hd)) _
          (List.mem_map_of_mem (hlooks d' hd'))
      · rcases List.mem_append.mp hd with hd | hd
        · exact List.mem_append_left _ (hlooks' d hd)
        · exact List.mem_append_right _ (hlooks d hd)

/-- An update is running, and its entries have drawn a drawing so far. -/
structure Underway (drawing : List Drawn) (m : Masking) (b : Board) : Prop where
  shows : m.decorations.Shows b
  passKeys : ∃ used, m.passKeys = some used ∧ ∀ key, key ∈ used ↔ key ∈ drawing.map Drawn.key
  drawn : ∀ d ∈ drawing, ∃ l, (d.key, l) ∈ b.slots ∧ l.stretches = d.stretches
  only : drawing ≠ [] → ∀ key ∈ b.keys, key ∈ drawing.map Drawn.key

variable {m : Masking} {b : Board} {caretStyle : String}

/-- The next entry adds its drawing. -/
theorem Underway.apply {drawing later : List Drawn} (h : Underway drawing m b) {x : Entry}
    (hlater : m.drawingOf caretStyle x = .ok later)
    (hnew : ∀ d ∈ drawing, d.key ∉ x.looks.map (·.1)) :
    ∃ answer m' b', apply x.pattern x.mask caretStyle m = .ok answer m' ∧
      Underway (drawing ++ later) m' b' ∧ Leads m m' b' m'.passKeys ∧
      b.Follows x.looks b' := by
  have hspec := apply_spec x caretStyle h.shows
  rw [hlater] at hspec
  obtain ⟨answer, m', b', used', happly, hused', hleads, happlied⟩ := hspec
  obtain ⟨used, hpass, hused⟩ := h.passKeys
  rw [hpass] at hleads happlied
  simp only [Option.map_some, Option.getD_some] at hleads happlied
  have hkept : ∀ key, key ∈ used ++ used' ↔ key ∈ (drawing ++ later).map Drawn.key := by
    intro key
    rw [List.mem_append, hused, hused', List.map_append, List.mem_append]
  refine ⟨answer, m', b', happly, ⟨hleads.shows, ⟨_, hleads.passKeys, hkept⟩, ?_, ?_⟩,
    hleads.passKeys ▸ hleads, happlied.evolves.follows happlied.keeps fun _ => id⟩
  · intro d hd
    rcases List.mem_append.mp hd with hd | hd
    · -- what was drawn before stays, since no entry has its key again
      obtain ⟨l, hl, hstretches⟩ := h.drawn d hd
      have hkey : d.key ∈ b'.keys := happlied.stays _ (Board.mem_keys.mpr ⟨l, hl⟩)
        (List.mem_append_left _ ((hused _).mpr (List.mem_map_of_mem hd)))
      obtain ⟨l', hl'⟩ := Board.mem_keys.mp hkey
      have hfresh : (d.key, l'.look) ∉ x.looks := fun hmem =>
        hnew d hd (List.mem_map_of_mem hmem)
      have hundrawn : d.key ∉ later.map Drawn.key := by
        intro hmem
        obtain ⟨e, he, heq⟩ := List.mem_map.mp hmem
        exact hnew d hd (heq ▸ List.mem_map_of_mem (mem_looks_of_drawingOf hlater he))
      rcases happlied.evolves.origin _ hl' with ⟨k, hk, _, _, hsame⟩ | ⟨_, hmem, _⟩
      · refine ⟨l', hl', ?_⟩
        rw [← hsame hundrawn, h.shows.sound.layer_unique hk hl]
        exact hstretches
      · exact absurd hmem hfresh
    · exact happlied.drawn d hd
  · intro hne key hkey
    -- an entry that draws nothing takes no key along and evicts none
    by_cases hlater : later = []
    · subst hlater
      rw [List.append_nil] at hne ⊢
      rw [happlied.idle rfl] at hkey
      exact h.only hne key hkey
    · exact (hkept key).mp (happlied.only hlater key hkey)

theorem Underway.report {drawing : List Drawn} (h : Underway drawing m b) (n : Notice) :
    Underway drawing { m with notices := m.notices ++ [n] } b :=
  ⟨h.shows, h.passKeys, h.drawn, h.only⟩

/-- The same is drawn for the same answers and scopes. -/
theorem Leads.drawingsOf_eq {m' : Masking} {b' : Board} {keys : Option (List String)}
    (h : Leads m m' b' keys) (hshows : m.decorations.Shows b) (hhost : b'.host = b.host)
    (caretStyle : String) (os : List Order) :
    m'.drawingsOf caretStyle os = m.drawingsOf caretStyle os := by
  induction os with
  | nil => rfl
  | cons o rest ih =>
    cases o with
    | apply x => rw [drawingsOf, drawingsOf, ih, h.drawingOf_eq hshows hhost]
    | skip => exact ih
    | fail fault => rfl

/-- Entries without a common key draw one after the other, unless one fails. -/
theorem obey_spec (caretStyle : String) (os : List Order) {drawing : List Drawn}
    (h : Underway drawing m b)
    (hkeys : ((Order.looks os).map (·.1)).Nodup)
    (hnew : ∀ d ∈ drawing, d.key ∉ (Order.looks os).map (·.1)) :
    match m.drawingsOf caretStyle os with
    | .error fault => ∃ m', obey caretStyle os m = .error fault m'
    | .ok later => ∃ answer m' b', obey caretStyle os m = .ok answer m' ∧
        Underway (drawing ++ later) m' b' ∧ Leads m m' b' m'.passKeys ∧
        b.Follows (Order.looks os) b' := by
  -- what is drawn so far grows, and no later entry has a key of it
  induction os generalizing m b drawing with
  | nil =>
    refine ⟨0, m, b, rfl, ?_, Leads.refl h.shows, Board.Follows.refl _ b⟩
    rwa [List.append_nil]
  | cons o rest ih =>
    cases o with
    | fail fault => exact ⟨m, rfl⟩
    | skip =>
      have hskip : Leads m { m with notices := m.notices ++ [.patternSkipped] } b m.passKeys :=
        ⟨h.shows, Desk.Redrawn.refl _ _, rfl, rfl⟩
      have hrest := ih (h.report .patternSkipped) hkeys hnew
      rw [hskip.drawingsOf_eq h.shows rfl] at hrest
      rw [drawingsOf]
      cases hlater : m.drawingsOf caretStyle rest with
      | error fault =>
        simp only [hlater] at hrest ⊢
        obtain ⟨m', hobey⟩ := hrest
        exact ⟨m', (Step.bind_of_ok (Step.modify_apply m _)).trans (Step.bind_of_error hobey)⟩
      | ok later =>
        simp only [hlater] at hrest ⊢
        obtain ⟨answer, m', b', hobey, hunderway, hleads, hfollows⟩ := hrest
        exact ⟨_, m', b', (Step.bind_of_ok (Step.modify_apply m _)).trans (Step.bind_of_ok hobey),
          hunderway, hskip.trans hleads hfollows.host, hfollows⟩
    | apply x =>
      rw [Order.looks, List.map_append] at hkeys hnew
      rw [List.nodup_append] at hkeys
      have hnewx : ∀ d ∈ drawing, d.key ∉ x.looks.map (·.1) := fun d hd hmem =>
        hnew d hd (List.mem_append_left _ hmem)
      cases hfirst : m.drawingOf caretStyle x with
      | error fault =>
        have hspec := apply_spec x caretStyle h.shows
        rw [hfirst] at hspec
        obtain ⟨m', b', happly, _⟩ := hspec
        simp only [drawingsOf, hfirst, bind, Except.bind]
        exact ⟨m', Step.bind_of_error happly⟩
      | ok first =>
        obtain ⟨_, m₁, b₁, happly, hunderway, hleads, hfollows⟩ := h.apply hfirst hnewx
        -- the keys of the first entry are not those of the others
        have hnewrest : ∀ d ∈ drawing ++ first, d.key ∉ (Order.looks rest).map (·.1) := by
          intro d hd hmem
          rcases List.mem_append.mp hd with hd | hd
          · exact hnew d hd (List.mem_append_right _ hmem)
          · exact hkeys.2.2 d.key (List.mem_map_of_mem (mem_looks_of_drawingOf hfirst hd))
              d.key hmem rfl
        have hrest := ih hunderway hkeys.2.1 hnewrest
        rw [hleads.drawingsOf_eq h.shows hfollows.host] at hrest
        simp only [drawingsOf, hfirst, bind, Except.bind, pure, Except.pure]
        cases hlater : m.drawingsOf caretStyle rest with
        | error fault =>
          simp only [hlater] at hrest ⊢
          obtain ⟨m', hobey⟩ := hrest
          exact ⟨m', (Step.bind_of_ok happly).trans (Step.bind_of_error hobey)⟩
        | ok later =>
          simp only [hlater] at hrest ⊢
          obtain ⟨answer, m', b', hobey, hunderway', hleads', hfollows'⟩ := hrest
          refine ⟨_, m', b', (Step.bind_of_ok happly).trans (Step.bind_of_ok hobey), ?_,
            hleads.trans hleads' hfollows'.host, ?_⟩
          · rwa [← List.append_assoc]
          · exact (hfollows.mono fun d hd => List.mem_append_left _ hd).trans
              (hfollows'.mono fun d hd => List.mem_append_right _ hd)

/-- An update removes in the end what its body has not used. -/
theorem update_of_ok {α : Type} {body : Step Masking α} {answer : α} {m₁ : Masking} {b₁ : Board}
    (hbody : body { m with passKeys := some [] } = .ok answer m₁)
    (hshows : m₁.decorations.Shows b₁) :
    ∃ m', update body m = .ok answer m' ∧
      Leads m₁ m' (b₁.keepOnly (m₁.passKeys.getD [])) m.passKeys := by
  have heditor : m₁.editor? = some b₁.host := hshows.host
  obtain ⟨evicted, hgives⟩ := hshows.evictAllExcept (m₁.passKeys.getD [])
  obtain ⟨m₂, hevicted, hleads⟩ := onDecorations_ok hgives
  refine ⟨{ m₂ with passKeys := m.passKeys }, ?_, hleads.shows, hleads.redrawn, hleads.scopes, rfl⟩
  unfold update
  simp only
  rw [Step.bind_of_ok hbody, Step.bind_of_ok (Step.get_apply m₁), heditor]
  simp only [Option.isSome_some, if_true]
  rw [Step.bind_of_ok hevicted]
  rfl

/-- An update whose body fails evicts nothing, and forgets its keys. -/
theorem update_of_error {α : Type} {body : Step Masking α} {fault : Fault} {m₁ : Masking}
    (hbody : body { m with passKeys := some [] } = .error fault m₁) :
    update body m = .error fault { m₁ with passKeys := m.passKeys } := by
  unfold update
  simp only
  rw [Step.bind_of_error hbody]

/-- Where an update begins. -/
theorem leads_begin (hb : m.decorations.Shows b) :
    Leads m { m with passKeys := some [] } b (some []) :=
  ⟨hb, Desk.Redrawn.refl _ _, rfl, rfl⟩

/-- An update draws what its entries draw and leaves nothing else, unless one fails. -/
theorem update_spec (caretStyle : String) (os : List Order) (h : m.decorations.Shows b)
    (hkeys : ((Order.looks os).map (·.1)).Nodup) :
    match m.drawingsOf caretStyle os with
    | .error fault => ∃ m', update (obey caretStyle os) m = .error fault m'
    | .ok drawing => ∃ answer m' b', update (obey caretStyle os) m = .ok answer m' ∧
        b'.Bears drawing ∧ Leads m m' b' m.passKeys ∧ b.Follows (Order.looks os) b' := by
  have hbegin := leads_begin h
  have hunderway : Underway [] { m with passKeys := some [] } b :=
    ⟨h, ⟨[], rfl, by simp⟩, by simp, fun hne => absurd rfl hne⟩
  have hobey := obey_spec caretStyle os hunderway hkeys (by simp)
  rw [hbegin.drawingsOf_eq h rfl] at hobey
  cases hdrawing : m.drawingsOf caretStyle os with
  | error fault =>
    simp only [hdrawing] at hobey ⊢
    obtain ⟨m₁, hobey⟩ := hobey
    exact ⟨_, update_of_error hobey⟩
  | ok drawing =>
    simp only [hdrawing] at hobey ⊢
    obtain ⟨answer, m₁, b₁, hobey, hdrew, hleads, hfollows⟩ := hobey
    obtain ⟨m', hupdate, hleads'⟩ := update_of_ok hobey hdrew.shows
    obtain ⟨used, hpass, hused⟩ := hdrew.passKeys
    rw [hpass, Option.getD_some] at hleads'
    have hkeep := hdrew.shows.sound.evolves_keepOnly used
    -- the end of the update keeps exactly the keys that were used
    refine ⟨answer, m', _, hupdate, ⟨fun key => ?_, fun d hd => ?_⟩,
      (hbegin.trans hleads hfollows.host).trans hleads' hkeep.host,
      hfollows.trans (hkeep.follows (Board.keeps_keepOnly _ _) (by simp))⟩
    · rw [Board.mem_keys_keepOnly, hused, List.nil_append]
      refine and_iff_right_of_imp fun hkey => ?_
      obtain ⟨d, hd, rfl⟩ := List.mem_map.mp hkey
      obtain ⟨l, hl, _⟩ := hdrew.drawn d hd
      exact Board.mem_keys.mpr ⟨l, hl⟩
    · obtain ⟨l, hl, hstretches⟩ := hdrew.drawn d hd
      exact ⟨l, Board.mem_slots_keepOnly.mpr ⟨hl, (hused _).mpr (List.mem_map_of_mem hd)⟩,
        hstretches⟩

end Masking

end Conceal
