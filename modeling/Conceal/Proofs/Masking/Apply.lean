import Conceal.Proofs.Decoration.Shows
import Conceal.Proofs.Masking.Drawing

/-!
What applying an entry does. Its drawing depends on what the host answers and on the scopes only; on
the board the drawn keys get layers where they have none, then their stretches, and in the end the
keys go that neither the entry nor the current update uses. Main statement: `apply_spec`.
-/

namespace Conceal

/-- What applying an entry does to a board, given what it draws and the keys that may stay. -/
structure Board.Applied (looks : List (String × Look)) (drawing : List Drawn) (kept : List String)
    (b b' : Board) : Prop where
  evolves : Evolves looks (drawing.map Drawn.key) b b'
  keeps : Keeps b b'
  drawn : ∀ d ∈ drawing, ∃ l, (d.key, l) ∈ b'.slots ∧ l.stretches = d.stretches
  stays : ∀ key ∈ b.keys, key ∈ kept → key ∈ b'.keys
  only : drawing ≠ [] → ∀ key ∈ b'.keys, key ∈ kept
  idle : drawing = [] → b' = b
  /-- With all keys there and none in excess, only stretches are given. -/
  steady : (∀ d ∈ drawing, d.key ∈ b.keys) → (∀ key ∈ b.keys, key ∈ kept) →
    Redraws b b'

theorem Board.Applied.refl (looks : List (String × Look)) (kept : List String) (b : Board) :
    Applied looks [] kept b b where
  evolves := Evolves.refl looks b
  keeps := Keeps.refl b
  drawn := by simp
  stays _ hkey _ := hkey
  only h := absurd rfl h
  idle _ := rfl
  steady _ _ := Redraws.refl b

/-- The same with the layer of a drawn key made before. -/
theorem Board.Applied.of_ensure {looks : List (String × Look)} {drawing : List Drawn}
    {kept : List String} {b b' : Board} {key : String} {look : Look}
    (h : Applied looks drawing kept (b.ensure key look) b') (hlook : (key, look) ∈ looks)
    (hkey : key ∈ drawing.map Drawn.key) : Applied looks drawing kept b b' where
  evolves := ((evolves_ensure b key look).trans h.evolves (by simp)).mono
    (fun d hd => by
      rcases List.mem_append.mp hd with hd | hd
      · exact List.mem_singleton.mp hd ▸ hlook
      · exact hd)
    (fun _ => Iff.rfl)
  keeps := (keeps_ensure b key look).trans h.keeps
  drawn := h.drawn
  stays k hk hkept := h.stays k (mem_keys_ensure.mpr (Or.inl hk)) hkept
  only := h.only
  idle hnil := by
    subst hnil
    cases hkey
  steady hpresent hall := by
    obtain ⟨d, hd, rfl⟩ := List.mem_map.mp hkey
    have hsame : b.ensure d.key look = b := ensure_of_mem (hpresent d hd) look
    rw [hsame] at h
    exact h.steady hpresent hall

/-- Stretches by key that are those of a drawing have its keys. -/
theorem mem_keys_of_mem_iff {drawing : List Drawn} {found : List (String × List Stretch)}
    (h : ∀ k ss, (k, ss) ∈ found ↔ ∃ d ∈ drawing, d.key = k ∧ d.stretches = ss) (key : String) :
    key ∈ found.map (·.1) ↔ key ∈ drawing.map Drawn.key := by
  simp only [List.mem_map, Prod.exists, h]
  constructor
  · rintro ⟨k, ss, ⟨d, hd, rfl, rfl⟩, rfl⟩
    exact ⟨d, hd, rfl⟩
  · rintro ⟨d, hd, rfl⟩
    exact ⟨_, _, ⟨d, hd, rfl, rfl⟩, rfl⟩

/-- Making layers, drawing and removing keys in a row. -/
theorem Board.Sound.applied {b : Board} (h : b.Sound) {looks : List (String × Look)}
    (looks' : List (String × Look)) {drawing : List Drawn}
    {found : List (String × List Stretch)} {kept : List String}
    (hlooks : ∀ d ∈ looks', d ∈ looks) (hnodup : (found.map (·.1)).Nodup)
    (hfound : ∀ k ss, (k, ss) ∈ found ↔ ∃ d ∈ drawing, d.key = k ∧ d.stretches = ss)
    (hkeys : ∀ k, k ∈ looks'.map (·.1) ↔ k ∈ found.map (·.1))
    (hkept : ∀ d ∈ drawing, d.key ∈ kept) (hne : drawing ≠ []) :
    Applied looks drawing kept b (((b.ensureAll looks').drawAll found).keepOnly kept) := by
  have hdrawn := mem_keys_of_mem_iff hfound
  have hensured := h.ensureAll looks'
  have hthere : ∀ e ∈ found, e.1 ∈ (b.ensureAll looks').keys := fun e he =>
    mem_keys_ensureAll.mpr (Or.inr ((hkeys _).mpr (List.mem_map_of_mem he)))
  have hdrew := hensured.drawAll found
  -- before keys are removed, those that were there and those of the drawing are there
  have hkeysDrew : ∀ k, k ∈ ((b.ensureAll looks').drawAll found).keys ↔
      k ∈ b.keys ∨ k ∈ drawing.map Drawn.key := by
    intro k
    rw [keys_drawAll, mem_keys_ensureAll, hkeys, hdrawn]
  refine ⟨?_, ?_, ?_, ?_, ?_, fun hnil => absurd hnil hne, ?_⟩
  · have hevolves := ((evolves_ensureAll b looks').trans (hensured.evolves_drawAll hthere)
      (by simp)).trans (hdrew.evolves_keepOnly kept) (by simp)
    refine hevolves.mono (fun d hd => ?_) (fun k => ?_)
    · exact hlooks d (by simpa using hd)
    · rw [List.append_nil, List.nil_append, hdrawn]
  · have hdraws := (redraws_drawAll (b.ensureAll looks') found).keeps
    exact ((keeps_ensureAll b looks').trans hdraws).trans (keeps_keepOnly _ kept)
  · intro d hd
    obtain ⟨l, hl⟩ := mem_keys.mp ((hkeysDrew d.key).mpr (Or.inr (List.mem_map_of_mem hd)))
    have hmem := (hfound d.key d.stretches).mpr ⟨d, hd, rfl, rfl⟩
    exact ⟨l, mem_slots_keepOnly.mpr ⟨hl, hkept d hd⟩,
      hensured.stretches_drawAll hthere hnodup hmem hl⟩
  · intro k hk hkeep
    exact mem_keys_keepOnly.mpr ⟨(hkeysDrew k).mpr (Or.inl hk), hkeep⟩
  · intro _ k hk
    exact (mem_keys_keepOnly.mp hk).2
  · intro hpresent hall
    -- nothing is made where all keys are present, and nothing is removed where all are kept
    have hsame : b.ensureAll looks' = b := ensureAll_of_mem fun d hd => by
      obtain ⟨e, he, heq⟩ :=
        List.mem_map.mp ((hdrawn d.1).mp ((hkeys d.1).mp (List.mem_map_of_mem hd)))
      exact heq ▸ hpresent e he
    rw [hsame, keepOnly_of_subset (by rwa [keys_drawAll])]
    exact redraws_drawAll b found

namespace Masking

/-- The later state has decorations that show a board; the host keeps its face, and all else is
as it was, but for notices and the keys in use. -/
structure Leads (m m' : Masking) (b : Board) (keys : Option (List String)) : Prop where
  shows : m'.decorations.Shows b
  redrawn : Desk.Redrawn b.host m.decorations.desk m'.decorations.desk
  scopes : m'.scopes = m.scopes
  passKeys : m'.passKeys = keys

variable {m : Masking} {b : Board}

theorem Leads.refl (h : m.decorations.Shows b) : Leads m m b m.passKeys :=
  ⟨h, Desk.Redrawn.refl _ _, rfl, rfl⟩

/-- What leads to a board, and from there to another with the same host, leads to that one. -/
theorem Leads.trans {m' m'' : Masking} {b' : Board} {keys keys' : Option (List String)}
    (h : Leads m m' b keys) (h' : Leads m' m'' b' keys') (hhost : b'.host = b.host) :
    Leads m m'' b' keys' :=
  ⟨h'.shows, Desk.Redrawn.trans (hhost ▸ h.redrawn) h'.redrawn, h'.scopes.trans h.scopes,
    h'.passKeys⟩

theorem onDecorations_of_ok {α : Type} {act : Step Decorations α} {answer : α} {d : Decorations}
    (h : act m.decorations = .ok answer d) :
    onDecorations act m = .ok answer { m with decorations := d } :=
  Step.on_of_ok h

/-- What decorations give, masking gives; it leads to their board. -/
theorem onDecorations_ok {α : Type} {act : Step Decorations α} {answer : α}
    (h : Decorations.Gives act m.decorations answer b) :
    ∃ m', onDecorations act m = .ok answer m' ∧ Leads m m' b m.passKeys := by
  obtain ⟨d', hact, hshows, hredrawn⟩ := h
  exact ⟨_, Step.on_of_ok hact, hshows, hredrawn, rfl, rfl⟩

theorem onDesk_of_ok {α : Type} {act : Step Desk α} {answer : α} {desk : Desk}
    (h : act m.decorations.desk = .ok answer desk) :
    onDesk act m = .ok answer { m with decorations.desk := desk } := by
  unfold onDesk onDecorations Decorations.onDesk
  exact Step.on_of_ok (Step.on_of_ok h)

theorem onDesk_of_error {α : Type} {act : Step Desk α} {fault : Fault} {desk : Desk}
    (h : act m.decorations.desk = .error fault desk) :
    onDesk act m = .error fault { m with decorations.desk := desk } := by
  unfold onDesk onDecorations Decorations.onDesk
  exact Step.on_of_error (Step.on_of_error h)

/-- The state with another desk that holds the same canvas. -/
theorem leads_of_desk (h : m.decorations.Shows b) {desk : Desk}
    (hredrawn : Desk.Redrawn b.host m.decorations.desk desk)
    (hholds : desk.Holds b.host b.made (b.slots.map (·.2)) b.calls) :
    Leads m { m with decorations.desk := desk } b m.passKeys :=
  ⟨⟨h.host, h.handles, hholds, h.sound⟩, hredrawn, rfl, rfl⟩

/-- Asking the host for its document answers with it and changes nothing else. -/
theorem snapshot_ok (h : m.decorations.Shows b) :
    ∃ m', onDesk (Desk.snapshot b.host) m = .ok (m.decorations.desk.document? b.host) m' ∧
      Leads m m' b m.passKeys := by
  obtain ⟨desk, hsnapshot, hredrawn, hholds⟩ := h.holds.snapshot
  exact ⟨_, onDesk_of_ok hsnapshot, leads_of_desk h hredrawn hholds⟩

/-- Asking the host for its selections answers with them, or fails as they do. -/
theorem selections_eq (h : m.decorations.Shows b) :
    ∃ m', (onDesk (Desk.selections b.host) m = match m.decorations.desk.ends b.host with
        | .ok ends => .ok ends m'
        | .error fault => .error fault m') ∧ Leads m m' b m.passKeys := by
  obtain ⟨desk, hselections, hredrawn, hholds⟩ := h.holds.selections
  refine ⟨_, ?_, leads_of_desk h hredrawn hholds⟩
  cases hends : m.decorations.desk.ends b.host with
  | ok ends =>
    rw [hends] at hselections
    exact onDesk_of_ok hselections
  | error fault =>
    rw [hends] at hselections
    exact onDesk_of_error hselections

/-! ## Carrying out decisions -/

/-- The decorations that matches with a replacement of their own ask for. -/
def ownLooks (base : String) (ps : List Placement) : List (String × Look) :=
  ps.filterMap fun p => p.own.map fun (_, o) => (keyOf base p, Mask.overrideLook o)

/-- Without a replacement of its own a match has the key of its entry. -/
theorem keyOf_of_own_eq_none {base : String} {p : Placement} (h : p.own = none) :
    keyOf base p = base := by
  simp [keyOf, h]

/-- A match that is masked gets a layer for its key, unless stretches of the key have come up. -/
theorem carryOut_place {base : String} {p : Placement} (rest : List Decision)
    (h : m.decorations.Shows b) {found : List (String × List Stretch)}
    (hbase : base ∈ found.map (·.1)) (hkeys : ∀ key ∈ found.map (·.1), key ∈ b.keys) :
    ∃ m', carryOut base (.place p :: rest) found m
        = carryOut base rest (addStretch found (keyOf base p) p.stretch) m' ∧
      Leads m m' (b.ensureAll (ownLooks base [p])) m.passKeys := by
  simp only [carryOut]
  cases hown : p.own with
  | none =>
    have hmem : (found.map (·.1)).contains (keyOf base p) = true := by
      rw [keyOf_of_own_eq_none hown]
      exact List.contains_iff_mem.mpr hbase
    refine ⟨m, ?_, ?_⟩
    · rw [hmem]
      rfl
    · simpa [ownLooks, hown, Board.ensureAll] using Leads.refl h
  | some own =>
    have hlooks : b.ensureAll (ownLooks base [p])
        = b.ensure (keyOf base p) (Mask.overrideLook own.2) := by
      simp [ownLooks, hown, Board.ensureAll]
    rw [hlooks]
    -- a key whose stretches have come up has its layer already
    by_cases hmem : keyOf base p ∈ found.map (·.1)
    · refine ⟨m, ?_, ?_⟩
      · rw [List.contains_iff_mem.mpr hmem]
        rfl
      · rw [Board.ensure_of_mem (hkeys _ hmem)]
        exact Leads.refl h
    · obtain ⟨handle, hgives⟩ := h.getOrCreate (keyOf base p) (Mask.overrideLook own.2)
      obtain ⟨m', hmade, hleads⟩ := onDecorations_ok hgives
      refine ⟨m', ?_, hleads⟩
      have hnot : (found.map (·.1)).contains (keyOf base p) = false := by
        rw [← Bool.not_eq_true, List.contains_iff_mem]
        exact hmem
      rw [hnot]
      exact Step.bind_of_ok hmade

theorem ownLooks_cons (base : String) (p : Placement) (ps : List Placement) :
    ownLooks base (p :: ps) = ownLooks base [p] ++ ownLooks base ps := by
  simp only [ownLooks, List.filterMap_cons, List.filterMap_nil]
  split <;> rfl

/-- The keys that stretches are collected for have layers; one whose first stretch comes up gets
one. -/
theorem carryOut_spec (base : String) (ds : List Decision) (found : List (String × List Stretch))
    (h : m.decorations.Shows b) (hbase : base ∈ found.map (·.1))
    (hkeys : ∀ key ∈ found.map (·.1), key ∈ b.keys) :
    ∃ m', (carryOut base ds found m = match failure? ds with
        | none => .ok (collect base (placements ds) found) m'
        | some fault => .error fault m') ∧
      Leads m m' (b.ensureAll (ownLooks base (placements ds))) m.passKeys := by
  -- a match may make a layer, so the board and what is found so far vary from one to the next
  induction ds generalizing m b found with
  | nil => exact ⟨m, rfl, Leads.refl h⟩
  | cons d rest ih =>
    cases d with
    | notice n =>
      have hreported : { m with notices := m.notices ++ [n] }.decorations.Shows b := h
      obtain ⟨m', hrest, hleads⟩ := ih found hreported hbase hkeys
      exact ⟨m', hrest, hleads.shows, hleads.redrawn, hleads.scopes, hleads.passKeys⟩
    | fail fault => exact ⟨m, rfl, Leads.refl h⟩
    | place p =>
      obtain ⟨m₁, hplace, hleads₁⟩ := carryOut_place (p := p) rest h hbase hkeys
      have hkeys₁ : ∀ key ∈ (addStretch found (keyOf base p) p.stretch).map (·.1),
          key ∈ (b.ensureAll (ownLooks base [p])).keys := by
        intro key hkey
        rw [Board.mem_keys_ensureAll]
        rcases mem_keys_addStretch.mp hkey with rfl | hkey
        · cases hown : p.own with
          | none =>
            rw [keyOf_of_own_eq_none hown]
            exact Or.inl (hkeys base hbase)
          | some own => exact Or.inr (by simp [ownLooks, hown])
        · exact Or.inl (hkeys key hkey)
      obtain ⟨m₂, hrest, hleads₂⟩ :=
        ih _ hleads₁.shows (mem_keys_addStretch.mpr (Or.inr hbase)) hkeys₁
      refine ⟨m₂, hplace.trans hrest, ?_⟩
      have hensure : b.ensureAll (ownLooks base (placements (.place p :: rest)))
          = (b.ensureAll (ownLooks base [p])).ensureAll (ownLooks base (placements rest)) := by
        rw [placements, ownLooks_cons, Board.ensureAll, List.foldl_append]
        rfl
      rw [hensure]
      rw [hleads₁.passKeys] at hleads₂
      exact hleads₁.trans hleads₂ (Board.evolves_ensureAll _ _).host

/-- Drawing key by key leads to the board on which all of this is drawn. -/
theorem renderEach_spec (found : List (String × List Stretch)) (h : m.decorations.Shows b) :
    ∃ m', renderEach found m = .ok () m' ∧ Leads m m' (b.drawAll found) m.passKeys := by
  induction found generalizing m b with
  | nil => exact ⟨m, rfl, Leads.refl h⟩
  | cons d rest ih =>
    obtain ⟨m₁, hrender, hleads₁⟩ := onDecorations_ok (h.render d.1 d.2)
    obtain ⟨m₂, hrest, hleads₂⟩ := ih hleads₁.shows
    refine ⟨m₂, (Step.bind_of_ok hrender).trans hrest, ?_⟩
    rw [hleads₁.passKeys] at hleads₂
    exact hleads₁.trans hleads₂ (Board.host_drawAll _ rest)

/-! ## Applying an entry -/

/-- What an entry is masked for, unless there is no document. -/
def scene? (m : Masking) (caretStyle : String) : Except Fault (Option Scene) :=
  match m.editor? with
  | none => .ok none
  | some host =>
    match m.decorations.desk.document? host with
    | none => .ok none
    | some document =>
      (m.decorations.desk.ends host).map fun ends => some ⟨document, ends, m.scopes, caretStyle⟩

/-- What applying an entry draws, unless it fails. -/
def drawingOf (m : Masking) (caretStyle : String) (x : Entry) : Except Fault (List Drawn) :=
  match m.scene? caretStyle with
  | .error fault => .error fault
  | .ok none => .ok []
  | .ok (some v) => x.drawing v

/-- The same is drawn for the same answers and scopes. -/
theorem Leads.drawingOf_eq {m' : Masking} {b' : Board} {keys : Option (List String)}
    (h : Leads m m' b' keys) (hshows : m.decorations.Shows b) (hhost : b'.host = b.host)
    (caretStyle : String) (x : Entry) :
    m'.drawingOf caretStyle x = m.drawingOf caretStyle x := by
  have heditor : m.editor? = some b.host := hshows.host
  have heditor' : m'.editor? = some b.host := hhost ▸ h.shows.host
  have hredrawn := hhost ▸ h.redrawn
  simp only [drawingOf, scene?, heditor, heditor', hredrawn.document?_eq, hredrawn.ends_eq,
    h.scopes]

/-- What is drawn has a look that the entry has for its key. -/
theorem mem_looks_of_drawingOf {caretStyle : String} {x : Entry} {drawing : List Drawn}
    (h : m.drawingOf caretStyle x = .ok drawing) {d : Drawn} (hd : d ∈ drawing) :
    (d.key, d.look) ∈ x.looks := by
  unfold drawingOf at h
  split at h
  · cases h
  · cases h; cases hd
  · exact Entry.mem_looks_of_mem_drawing h hd

/-- An entry draws no key twice. -/
theorem nodup_drawingOf {caretStyle : String} {x : Entry} {drawing : List Drawn}
    (h : m.drawingOf caretStyle x = .ok drawing) : (drawing.map Drawn.key).Nodup := by
  unfold drawingOf at h
  split at h
  · cases h
  · cases h; exact List.nodup_nil
  · exact Entry.nodup_drawing h

/-- The keys that are asked for are those that stretches are collected for. -/
theorem mem_keys_ownLooks {base key : String} {look : Look} {ps : List Placement} :
    key ∈ ((base, look) :: ownLooks base ps).map (·.1) ↔
      key ∈ (collect base ps [(base, [])]).map (·.1) := by
  rw [mem_keys_collect]
  simp only [ownLooks, List.map_cons, List.map_nil, List.mem_cons, List.not_mem_nil, or_false,
    List.mem_map, List.mem_filterMap]
  constructor
  · rintro (rfl | ⟨d, ⟨p, hp, hd⟩, rfl⟩)
    · exact Or.inl rfl
    · obtain ⟨own, _, rfl⟩ := Option.map_eq_some_iff.mp hd
      exact Or.inr ⟨p, hp, rfl⟩
  · rintro (rfl | ⟨p, hp, rfl⟩)
    · exact Or.inl rfl
    · cases hown : p.own with
      | none => exact Or.inl (keyOf_of_own_eq_none hown)
      | some own => exact Or.inr ⟨_, ⟨p, hp, by rw [hown]; rfl⟩, rfl⟩

/-- The decorations that the matches of an entry ask for have looks of the entry. -/
theorem ownLooks_subset {x : Entry} {v : Scene} {d : String × Look}
    (hd : d ∈ ownLooks x.base (placements (x.decided v))) : d ∈ x.looks := by
  obtain ⟨p, hp, heq⟩ := List.mem_filterMap.mp hd
  obtain ⟨⟨text, o⟩, hown, rfl⟩ := Option.map_eq_some_iff.mp heq
  exact Entry.own_mem_looks hp hown

/-- What carrying out the decisions about an entry does to a board. -/
theorem applied_of_drawing {x : Entry} {v : Scene} (hb : b.Sound) (hbase : x.base ∈ b.keys)
    {drawing : List Drawn} (hdrawing : x.drawing v = .ok drawing) (kept : List String) :
    let ps := placements (x.decided v)
    let found := collect x.base ps [(x.base, [])]
    (∀ key, key ∈ found.map (·.1) ↔ key ∈ drawing.map Drawn.key) ∧
      b.Applied x.looks drawing (kept ++ found.map (·.1))
        (((b.ensureAll (ownLooks x.base ps)).drawAll
          (found.drop 1 ++ found.take 1)).keepOnly (kept ++ found.map (·.1))) := by
  intro ps found
  have hensure : b.ensureAll (ownLooks x.base ps)
      = b.ensureAll ((x.base, x.mask.baseLook) :: ownLooks x.base ps) := by
    rw [Board.ensureAll, Board.ensureAll, List.foldl_cons, Board.ensure_of_mem hbase]
  rw [hensure]
  have hdrawn : drawing = Masking.drawing x.base x.mask ps := by
    unfold Entry.drawing at hdrawing
    split at hdrawing
    · cases hdrawing
    · exact (Except.ok.inj hdrawing).symm
  -- the pattern's own key comes first, and is drawn last
  have hmem : ∀ d, d ∈ found.drop 1 ++ found.take 1 ↔ d ∈ found := by
    intro d
    rw [List.mem_append, or_comm, ← List.mem_append, List.take_append_drop]
  have hkeys : ∀ k, k ∈ (found.drop 1 ++ found.take 1).map (·.1) ↔ k ∈ found.map (·.1) := by
    intro k
    simp only [List.mem_map, hmem]
  have hfound : ∀ k, k ∈ found.map (·.1) ↔ k ∈ drawing.map Drawn.key :=
    mem_keys_of_mem_iff fun k ss => hdrawn ▸ mem_collect_iff x.mask
  refine ⟨hfound, hb.applied ((x.base, x.mask.baseLook) :: ownLooks x.base ps)
    ?_ ?_ ?_ ?_ ?_ (by rw [hdrawn]; exact List.cons_ne_nil _ _)⟩
  · intro d hd
    rcases List.mem_cons.mp hd with rfl | hd
    · exact List.mem_cons_self
    · exact ownLooks_subset hd
  · have hperm : (found.drop 1 ++ found.take 1).Perm found := by
      conv_rhs => rw [← List.take_append_drop 1 found]
      exact List.perm_append_comm
    exact (hperm.map _).nodup_iff.mpr (nodup_collect (by simp))
  · intro k ss
    rw [hmem, hdrawn]
    exact mem_collect_iff x.mask
  · intro k
    rw [hkeys]
    exact mem_keys_ownLooks
  · intro d hd
    exact List.mem_append_right _ ((hfound d.key).mpr (List.mem_map_of_mem hd))

/-- Keys in use are noted behind those of the update so far, and are the answer. -/
theorem noteKeys_apply {m₁ : Masking} {keys : Option (List String)} (hkeys : m₁.passKeys = keys)
    (used : List String) :
    noteKeys used m₁ =
      .ok (keys.getD [] ++ used) { m₁ with passKeys := keys.map (· ++ used) } := by
  subst hkeys
  unfold noteKeys
  rw [Step.modifyGet_apply]
  cases hkeys : m₁.passKeys with
  | some keys => rfl
  | none =>
    show EStateM.Result.ok used m₁ = .ok used { m₁ with passKeys := none }
    rw [← hkeys]

/-- Drawing fails where a decision does; then no stretches are given. -/
theorem draw_spec (x : Entry) (v : Scene) (h : m.decorations.Shows b) (hbase : x.base ∈ b.keys) :
    match x.drawing v with
    | .error fault => ∃ m' b', draw x.base (x.decided v) m = .error fault m' ∧
        Leads m m' b' m.passKeys ∧ b.Evolves x.looks [] b'
    | .ok drawing => ∃ answer m' b' used, draw x.base (x.decided v) m = .ok answer m' ∧
        (∀ key, key ∈ used ↔ key ∈ drawing.map Drawn.key) ∧
        Leads m m' b' (m.passKeys.map (· ++ used)) ∧
        b.Applied x.looks drawing (m.passKeys.getD [] ++ used) b' := by
  obtain ⟨m₁, hcarried, hleads₁⟩ := carryOut_spec x.base (x.decided v) [(x.base, [])] h (by simp)
    (by simpa using hbase)
  cases hfailure : failure? (x.decided v) with
  | some fault =>
    -- the tokenizer fails midway: keys were made, and nothing is drawn or removed
    simp only [Entry.drawing, hfailure] at hcarried ⊢
    refine ⟨m₁, _, Step.bind_of_error hcarried, hleads₁, ?_⟩
    exact (Board.evolves_ensureAll _ _).mono (fun d hd => ownLooks_subset hd) (fun _ => Iff.rfl)
  | none =>
    simp only [hfailure] at hcarried
    have hdrawing : x.drawing v =
        .ok (Masking.drawing x.base x.mask (placements (x.decided v))) := by
      simp only [Entry.drawing, hfailure]
    rw [hdrawing]
    have happlied := applied_of_drawing h.sound hbase hdrawing (m.passKeys.getD [])
    obtain ⟨m₂, hrendered, hleads₂⟩ := renderEach_spec
      ((collect x.base (placements (x.decided v)) [(x.base, [])]).drop 1
        ++ (collect x.base (placements (x.decided v)) [(x.base, [])]).take 1) hleads₁.shows
    simp only at happlied
    generalize collect x.base (placements (x.decided v)) [(x.base, [])] = found at *
    obtain ⟨hused, happlied⟩ := happlied
    -- drawing and noting leave the pass as it was, so that the three steps chain
    have hpass : m₂.passKeys = m.passKeys := hleads₂.passKeys.trans hleads₁.passKeys
    have hleads : Leads m { m₂ with passKeys := m.passKeys.map (· ++ found.map (·.1)) } _ _ :=
      ⟨hleads₂.shows, (hleads₁.trans hleads₂ (Board.host_drawAll _ _)).redrawn,
        hleads₂.scopes.trans hleads₁.scopes, rfl⟩
    obtain ⟨evicted, hgives⟩ :=
      hleads.shows.evictAllExcept (m.passKeys.getD [] ++ found.map (·.1))
    obtain ⟨m₃, hevicted, hleads₃⟩ := onDecorations_ok hgives
    refine ⟨(found.flatMap (·.2)).length, m₃, _, found.map (·.1), ?_, hused, ?_, happlied⟩
    · unfold draw
      rw [Step.bind_of_ok hcarried, Step.bind_of_ok hrendered,
        Step.bind_of_ok (noteKeys_apply hpass (found.map (·.1))), Step.bind_of_ok hevicted]
      rfl
    · exact hleads.trans hleads₃ (hleads.shows.sound.evolves_keepOnly _).host

/-- Applying an entry draws its drawing. Where that fails it fails, and no stretches are given. -/
theorem apply_spec (x : Entry) (caretStyle : String) (h : m.decorations.Shows b) :
    match m.drawingOf caretStyle x with
    | .error fault => ∃ m' b', apply x.pattern x.mask caretStyle m = .error fault m' ∧
        Leads m m' b' m.passKeys ∧ b.Evolves x.looks [] b'
    | .ok drawing => ∃ answer m' b' used, apply x.pattern x.mask caretStyle m = .ok answer m' ∧
        (∀ key, key ∈ used ↔ key ∈ drawing.map Drawn.key) ∧
        Leads m m' b' (m.passKeys.map (· ++ used)) ∧
        b.Applied x.looks drawing (m.passKeys.getD [] ++ used) b' := by
  have heditor : m.editor? = some b.host := h.host
  unfold apply drawingOf scene?
  rw [Step.bind_of_ok (Step.get_apply m)]
  simp only [heditor]
  obtain ⟨m₁, hsnapshot, hleads₁⟩ := snapshot_ok h
  rw [Step.bind_of_ok hsnapshot]
  cases m.decorations.desk.document? b.host with
  | none =>
    refine ⟨0, m₁, b, [], rfl, by simp, ?_, Board.Applied.refl _ _ b⟩
    simpa using hleads₁
  | some document =>
    -- the pattern's own layer is made before the selections are asked for, which can fail
    have hhost : (b.ensure x.base x.mask.baseLook).host = b.host :=
      (Board.evolves_ensure _ _ _).host
    obtain ⟨handle, hgives⟩ := hleads₁.shows.getOrCreate x.base x.mask.baseLook
    obtain ⟨m₂, hmade, hleads₂⟩ := onDecorations_ok hgives
    obtain ⟨m₃, hselections, hleads₃⟩ := selections_eq hleads₂.shows
    have hleads := (hleads₁.trans hleads₂ hhost).trans hleads₃ rfl
    rw [hleads₂.passKeys, hleads₁.passKeys] at hleads
    have hends : m₂.decorations.desk.ends b.host = m.decorations.desk.ends b.host :=
      (hhost ▸ (hleads₁.trans hleads₂ hhost).redrawn : Desk.Redrawn b.host _ _).ends_eq
    rw [hhost, hends] at hselections
    simp only
    cases hread : m.decorations.desk.ends b.host with
    | error fault =>
      rw [hread] at hselections
      refine ⟨m₃, _, (Step.bind_of_ok hmade).trans (Step.bind_of_error hselections), hleads, ?_⟩
      exact (Board.evolves_ensure _ _ _).mono (by simp [Entry.looks]) (fun _ => Iff.rfl)
    | ok ends =>
      rw [hread] at hselections
      simp only [Except.map]
      rw [Step.bind_of_ok hmade, Step.bind_of_ok hselections, Step.bind_of_ok (Step.get_apply m₃),
        hleads.scopes]
      have hdrew := draw_spec x ⟨document, ends, m.scopes, caretStyle⟩ hleads.shows
        (Board.mem_keys_ensure.mpr (Or.inr rfl))
      cases hdrawing : x.drawing ⟨document, ends, m.scopes, caretStyle⟩ with
      | error fault =>
        simp only [hdrawing] at hdrew ⊢
        obtain ⟨m₄, b', hdraw, hleads₄, hevolves⟩ := hdrew
        refine ⟨m₄, b', hdraw, ?_, ?_⟩
        · rw [hleads.passKeys] at hleads₄
          exact hleads.trans hleads₄ hevolves.host
        · exact ((Board.evolves_ensure b _ _).trans hevolves (by simp)).mono
            (by simp [Entry.looks]) (fun _ => Iff.rfl)
      | ok drawing =>
        simp only [hdrawing] at hdrew ⊢
        obtain ⟨answer, m₄, b', used, hdraw, hused, hleads₄, happlied⟩ := hdrew
        rw [hleads.passKeys] at hleads₄ happlied
        refine ⟨answer, m₄, b', used, hdraw, hused,
          hleads.trans hleads₄ happlied.evolves.host, ?_⟩
        exact happlied.of_ensure List.mem_cons_self (Entry.base_mem_drawing hdrawing)

end Masking

end Conceal
