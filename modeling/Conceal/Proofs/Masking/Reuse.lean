import Conceal.Proofs.Decoration.Tidy
import Conceal.Proofs.Masking.Trace

/-!
Reuse of decorations from one update to the next. Every application removes what neither it nor the
update so far has used, so it removes the decorations of the entries that come after it. The same
update run again therefore reuses all decorations exactly when it has one entry at most, or no
document.
-/

namespace Conceal

/-- All editors are there, grant every call and have no decorations. -/
structure Desk.Fresh (d : Desk) : Prop where
  blank : d.Blank
  alive : ∀ name e, d.editor? name = some e → e.alive

namespace Masking

/-- Applies entries in order. -/
def applyAll (caretStyle : String) (xs : List Entry) : Step Masking Nat :=
  obey caretStyle (xs.map .apply)

/-- Between two states no decoration is created or disposed of, and every key keeps its handle. -/
structure Reuses (m m' : Masking) : Prop where
  calls : ∃ new, m'.decorations.desk.calls = new ++ m.decorations.desk.calls ∧
    ∀ c ∈ new, c.2.isSet
  handles : m'.decorations.handles = m.decorations.handles

/-! ## What can happen before -/

/-- What can happen to masking. -/
inductive Act where
  | turnTo (editor : Option String)
  | clear
  | apply (x : Entry) (caretStyle : String)
  | update (caretStyle : String) (xs : List Entry)
  /-- The document has other scopes. -/
  | rescoped (scopes : LineScopes)
  /-- An editor has another content. -/
  | changed (name : String) (content : Content)

/-- Does what can happen. -/
def perform : Act → Step Masking Unit
  | .turnTo editor => onDecorations (Decorations.setHost editor)
  | .clear => onDecorations Decorations.clear
  | .apply x caretStyle => do let _ ← apply x.pattern x.mask caretStyle
  | .update caretStyle xs => do let _ ← update (applyAll caretStyle xs)
  | .rescoped scopes => modify fun m => { m with scopes }
  | .changed name content => modify fun m =>
      { m with decorations.desk :=
          m.decorations.desk.change name fun e => { e with content } }

/-- The state after anything has happened. -/
def history (m : Masking) (acts : List Act) : Masking :=
  acts.foldl (fun m a => Step.after (perform a) m) m

/-- The decorations are tidy, and all editors are there. -/
structure Ready (m : Masking) : Prop where
  tidy : m.decorations.Tidy (fun _ _ => False) (fun _ => True)
  alive : ∀ name, (m.decorations.desk.editor? name).map Editor.alive ≠ some false

variable {m : Masking} {b : Board}

/-- What leads to another board of the same host keeps everything tidy. -/
theorem Ready.of_leads (h : Ready m) {m' : Masking} {b' : Board} {keys : Option (List String)}
    (hb : m.decorations.Shows b) (hleads : Leads m m' b' keys) (hhost : b'.host = b.host)
    (hmade : b.made ≤ b'.made) : Ready m' where
  tidy := h.tidy.move hb hleads.shows hhost hmade (hhost ▸ hleads.redrawn)
    (fun _ _ => Or.inl) trivial
  alive name := by
    rw [hleads.redrawn.alive_eq]
    exact h.alive name

/-- Where there is a host that is no editor, nothing can be applied. -/
theorem apply_absent (h : m.editor?.bind m.decorations.desk.editor? = none) (x : Entry)
    (caretStyle : String) : apply x.pattern x.mask caretStyle m = .ok 0 m := by
  unfold apply
  rw [Step.bind_of_ok (Step.get_apply m)]
  cases hhost : m.editor? with
  | none => rfl
  | some host =>
    rw [hhost, Option.bind_some] at h
    have hsnapshot : onDesk (Desk.snapshot host) m = .ok none m := by
      have : Desk.snapshot host m.decorations.desk = .ok none m.decorations.desk := by
        simp only [Desk.snapshot, h]
      exact onDesk_of_ok this
    simp only
    rw [Step.bind_of_ok hsnapshot]
    rfl

/-- Either the decorations show a board, or there are none and the host is no editor. -/
theorem Ready.cases (h : Ready m) : (∃ b, m.decorations.Shows b) ∨
    m.decorations.handles = [] ∧ m.editor?.bind m.decorations.desk.editor? = none := by
  rcases h.tidy.board with ⟨b, hb, _⟩ | ⟨hnone, hgone⟩
  · exact Or.inl ⟨b, hb⟩
  · refine Or.inr ⟨hnone, ?_⟩
    rw [Option.bind_eq_none_iff]
    intro host hhost
    have hthere := h.alive host
    have := hgone host hhost
    cases he : m.decorations.desk.editor? host with
    | none => rfl
    | some e =>
      rw [Desk.isAlive, he, Option.any_some] at this
      rw [he, Option.map_some, this] at hthere
      exact absurd rfl hthere

/-- Applying an entry keeps everything tidy. -/
theorem Ready.apply (h : Ready m) (x : Entry) (caretStyle : String) :
    Ready (Application.after ⟨x, caretStyle, m⟩) := by
  rcases h.cases with ⟨b, hb⟩ | ⟨_, habsent⟩
  · obtain ⟨b', hleads, hevolves, _⟩ := Application.spec ⟨x, caretStyle, m⟩ hb
    exact h.of_leads hb hleads hevolves.host hevolves.made
  · rw [Application.after, Step.after_of_ok (apply_absent habsent x caretStyle)]
    exact h

/-- Evicting keys keeps everything tidy. -/
theorem Ready.evictAllExcept (h : Ready m) (keep : List String) :
    Ready (Step.after (onDecorations (Decorations.evictAllExcept keep)) m) := by
  rcases h.cases with ⟨b, hb⟩ | ⟨hnone, _⟩
  · obtain ⟨evicted, hgives⟩ := hb.evictAllExcept keep
    obtain ⟨m', hevict, hleads⟩ := onDecorations_ok hgives
    rw [Step.after_of_ok hevict]
    have hevolves := hb.sound.evolves_keepOnly keep
    exact h.of_leads hb hleads hevolves.host hevolves.made
  · have hevict : Decorations.evictAllExcept keep m.decorations = .ok [] m.decorations := by
      unfold Decorations.evictAllExcept
      rw [Step.bind_of_ok (Step.get_apply m.decorations), Decorations.keys, hnone]
      rfl
    rw [Step.after_of_ok (onDecorations_of_ok hevict)]
    exact h

/-- So does an update. -/
theorem Ready.update (h : Ready m) (caretStyle : String) (xs : List Entry) :
    Ready (Step.after (update (applyAll caretStyle xs)) m) :=
  update_induct (P := fun _ m => Ready m) (fun _ x _ _ hm => hm.apply x caretStyle)
    (fun _ _ _ hm => ⟨hm.tidy, hm.alive⟩) (fun _ _ _ hm => ⟨hm.tidy, hm.alive⟩)
    (fun _ _ keep hm => hm.evictAllExcept keep) [] h

/-- So does anything that can happen between two updates. -/
theorem Ready.perform (h : Ready m) (a : Act) : Ready (Step.after (perform a) m) := by
  cases a with
  | turnTo editor =>
    show Ready (Step.after (onDecorations (Decorations.setHost editor)) m)
    -- turning to the editor at hand does nothing
    by_cases hsame : m.decorations.host = editor
    · have hset : Decorations.setHost editor m.decorations = .ok () m.decorations := by
        unfold Decorations.setHost
        rw [Step.bind_of_ok (Step.get_apply m.decorations), if_pos hsame]
        rfl
      rw [Step.after_of_ok (onDecorations_of_ok hset)]
      exact h
    · obtain ⟨d', hset, htidy, _, halive⟩ :=
        h.tidy.setHost (fun _ _ => trivial) editor hsame
      rw [Step.after_of_ok (onDecorations_of_ok hset)]
      exact ⟨htidy, fun name => (halive name).symm ▸ h.alive name⟩
  | clear =>
    obtain ⟨d', hclear, htidy, _, _, halive, _⟩ := h.tidy.clear (fun _ _ => trivial)
    show Ready (Step.after (onDecorations Decorations.clear) m)
    rw [Step.after_of_ok (onDecorations_of_ok hclear)]
    exact ⟨htidy, fun name => (halive name).symm ▸ h.alive name⟩
  | apply x caretStyle =>
    show Ready (Step.after (Masking.apply x.pattern x.mask caretStyle >>= fun _ => pure ()) m)
    rw [Step.after_bind_pure]
    exact h.apply x caretStyle
  | update caretStyle xs =>
    show Ready (Step.after (Masking.update (applyAll caretStyle xs) >>= fun _ => pure ()) m)
    rw [Step.after_bind_pure]
    exact h.update caretStyle xs
  | rescoped scopes => exact ⟨h.tidy, h.alive⟩
  | changed name content =>
    refine ⟨h.tidy.calm (Desk.Calm.of_change _ name (fun _ => rfl) fun _ => id), fun n => ?_⟩
    show ((m.decorations.desk.change name _).editor? n).map Editor.alive ≠ _
    rw [Desk.editor?_change]
    split
    · rw [Option.map_map]
      exact h.alive n
    · exact h.alive n

/-- Whatever happens, the decorations stay tidy. -/
theorem Ready.history (h : Ready m) (acts : List Act) : Ready (m.history acts) := by
  induction acts generalizing m with
  | nil => exact h
  | cons a rest ih => exact ih (h.perform a)

/-- Everything is tidy in the beginning. -/
theorem ready_of_fresh {desk : Desk} (h : desk.Fresh) : Ready { decorations := { desk } } where
  tidy := Decorations.tidy_of_blank h.blank fun _ _ => id
  alive name := by
    show (desk.editor? name).map Editor.alive ≠ some false
    cases he : desk.editor? name with
    | none => simp
    | some e => simp [h.alive name e he]

/-! ## The same update again -/

theorem looks_map_apply (xs : List Entry) :
    Order.looks (xs.map .apply) = xs.flatMap Entry.looks := by
  induction xs with
  | nil => rfl
  | cons x rest ih => rw [List.map_cons, Order.looks, ih, List.flatMap_cons]

/-- Without a document nothing is drawn. -/
theorem drawingOf_eq_nil (hb : m.decorations.Shows b)
    (hnone : m.decorations.desk.document? b.host = none) (caretStyle : String) (x : Entry) :
    m.drawingOf caretStyle x = .ok [] := by
  have heditor : m.editor? = some b.host := hb.host
  simp only [drawingOf, scene?, heditor, hnone]

/-- With a document the pattern's own decoration is drawn. -/
theorem base_mem_drawingOf (hb : m.decorations.Shows b)
    (hsome : m.decorations.desk.document? b.host ≠ none) {caretStyle : String} {x : Entry}
    {drawing : List Drawn} (h : m.drawingOf caretStyle x = .ok drawing) :
    x.base ∈ drawing.map Drawn.key := by
  have heditor : m.editor? = some b.host := hb.host
  obtain ⟨document, hdocument⟩ := Option.ne_none_iff_exists'.mp hsome
  simp only [drawingOf, scene?, heditor, hdocument] at h
  cases hends : m.decorations.desk.ends b.host with
  | error fault => rw [hends] at h; cases h
  | ok ends =>
    rw [hends] at h
    exact Entry.base_mem_drawing h

/-- Where a board is only drawn again, all layers are used again. -/
theorem reuses_of_redraws {m' : Masking} {b' : Board} (hb : m.decorations.Shows b)
    (hb' : m'.decorations.Shows b') (h : b.Redraws b') : Reuses m m' where
  calls := by
    rw [hb.holds.calls, hb'.holds.calls]
    exact h.calls
  handles := by rw [hb.handles, hb'.handles, h.handles]

/-- Entries that draw nothing leave the board alone. -/
theorem applyAll_idle {caretStyle : String} {xs : List Entry} (hb : m.decorations.Shows b)
    (hidle : ∀ x ∈ xs, m.drawingOf caretStyle x = .ok []) :
    ∃ n m', applyAll caretStyle xs m = .ok n m' ∧ Leads m m' b m.passKeys := by
  induction xs generalizing m with
  | nil => exact ⟨0, m, rfl, Leads.refl hb⟩
  | cons x rest ih =>
    have hspec := apply_spec x caretStyle hb
    rw [hidle x List.mem_cons_self] at hspec
    obtain ⟨_, m₁, b₁, used, happly, hused, hleads, happlied⟩ := hspec
    obtain rfl : b₁ = b := happlied.idle rfl
    obtain rfl : used = [] := List.eq_nil_iff_forall_not_mem.mpr fun key hkey => by
      simpa using (hused key).mp hkey
    have hpass : m.passKeys.map (· ++ ([] : List String)) = m.passKeys := by simp
    rw [hpass] at hleads
    obtain ⟨n, m₂, hrest, hleads₂⟩ := ih hleads.shows fun x' hx' => by
      rw [hleads.drawingOf_eq hb rfl]
      exact hidle x' (List.mem_cons_of_mem _ hx')
    refine ⟨1 + n, m₂, (Step.bind_of_ok happly).trans (Step.bind_of_ok hrest), ?_⟩
    rw [hleads.passKeys] at hleads₂
    exact hleads.trans hleads₂ rfl

/-- Entries without anything to draw draw nothing in a row. -/
theorem drawingsOf_idle {caretStyle : String} {xs : List Entry}
    (hidle : ∀ x ∈ xs, m.drawingOf caretStyle x = .ok []) :
    m.drawingsOf caretStyle (xs.map .apply) = .ok [] := by
  induction xs with
  | nil => rfl
  | cons x rest ih =>
    rw [List.map_cons, drawingsOf, hidle x List.mem_cons_self,
      ih fun x' hx' => hidle x' (List.mem_cons_of_mem _ hx')]
    rfl

/-- An update of entries that draw nothing only gives stretches on a board without keys. -/
theorem update_redraws_of_idle {caretStyle : String} {xs : List Entry}
    (hb : m.decorations.Shows b) (hempty : b.Bears [])
    (hidle : ∀ x ∈ xs, m.drawingOf caretStyle x = .ok []) :
    ∃ n m' b', update (applyAll caretStyle xs) m = .ok n m' ∧ m'.decorations.Shows b' ∧
      b.Redraws b' := by
  obtain ⟨n, m₁, hall, hleads⟩ := applyAll_idle (leads_begin hb).shows fun x hx => by
    rw [(leads_begin hb).drawingOf_eq hb rfl]
    exact hidle x hx
  obtain ⟨m', hupdate, hleads'⟩ := update_of_ok hall hleads.shows
  rw [Board.keepOnly_of_subset fun key hkey => absurd ((hempty.keys key).mp hkey) (by simp)]
    at hleads'
  exact ⟨n, m', b, hupdate, hleads'.shows, Board.Redraws.refl b⟩

/-- An update of one entry only gives stretches on a board that bears the entry's drawing. -/
theorem update_redraws_of_single {caretStyle : String} {x : Entry} {drawing : List Drawn}
    (hb : m.decorations.Shows b) (hdrawing : m.drawingOf caretStyle x = .ok drawing)
    (hbears : b.Bears drawing) :
    ∃ n m' b', update (applyAll caretStyle [x]) m = .ok n m' ∧ m'.decorations.Shows b' ∧
      b.Redraws b' := by
  have hspec := apply_spec x caretStyle (leads_begin hb).shows
  rw [(leads_begin hb).drawingOf_eq hb rfl, hdrawing] at hspec
  obtain ⟨answer, m₁, b₁, used, happly, hused, hleads, happlied⟩ := hspec
  simp only [Option.map_some, Option.getD_some, List.nil_append] at hleads happlied
  have hkeys : ∀ key ∈ b.keys, key ∈ used := fun key hkey =>
    (hused key).mpr ((hbears.keys key).mp hkey)
  have hredraws := happlied.steady
    (fun d hd => (hbears.keys d.key).mpr (List.mem_map_of_mem hd)) hkeys
  have hall : applyAll caretStyle [x] { m with passKeys := some [] } = .ok (1 + 0) m₁ :=
    Step.bind_of_ok happly
  obtain ⟨m', hupdate, hleads'⟩ := update_of_ok hall hleads.shows
  rw [hleads.passKeys, Option.getD_some, Board.keepOnly_of_subset
    (by rwa [Board.keys_eq_of_handles hredraws.handles])] at hleads'
  exact ⟨_, m', b₁, hupdate, hleads'.shows, hredraws⟩

/-- With one entry at most, or without a document, an update on a board that bears its drawing only
gives stretches. -/
theorem update_redraws {caretStyle : String} {xs : List Entry} {drawing : List Drawn}
    (hb : m.decorations.Shows b)
    (hdrawing : m.drawingsOf caretStyle (xs.map .apply) = .ok drawing) (hbears : b.Bears drawing)
    (hfew : xs.length ≤ 1 ∨ m.decorations.desk.document? b.host = none) :
    ∃ n m' b', update (applyAll caretStyle xs) m = .ok n m' ∧ m'.decorations.Shows b' ∧
      b.Redraws b' := by
  by_cases hidle : ∀ x ∈ xs, m.drawingOf caretStyle x = .ok []
  · rw [drawingsOf_idle hidle] at hdrawing
    obtain rfl := Except.ok.inj hdrawing
    exact update_redraws_of_idle hb hbears hidle
  · rcases hfew with hlength | hnone
    · rcases xs with _ | ⟨x, _ | ⟨y, rest⟩⟩
      · exact absurd (by simp) hidle
      · obtain ⟨first, later, hfirst, hlater, rfl⟩ := drawingsOf_cons_ok hdrawing
        obtain rfl : [] = later := Except.ok.inj hlater
        rw [List.append_nil] at hbears
        exact update_redraws_of_single hb hfirst hbears
      · simp at hlength
    · exact absurd (fun x _ => drawingOf_eq_nil hb hnone caretStyle x) hidle

/-- With two entries and a document, the first entry of an update disposes of what the second one
has drawn. -/
theorem not_reuses {caretStyle : String} {x y : Entry} {rest : List Entry} {drawing : List Drawn}
    (hb : m.decorations.Shows b)
    (hdrawing : m.drawingsOf caretStyle ((x :: y :: rest).map .apply) = .ok drawing)
    (hbears : b.Bears drawing) (hkeys : (((x :: y :: rest).flatMap Entry.looks).map (·.1)).Nodup)
    (hsome : m.decorations.desk.document? b.host ≠ none) {n : Nat} {m' : Masking}
    (hupdate : update (applyAll caretStyle (x :: y :: rest)) m = .ok n m') : ¬ Reuses m m' := by
  obtain ⟨first, later, hfirst, hlater, rfl⟩ := drawingsOf_cons_ok hdrawing
  obtain ⟨second, later', hsecond, _, rfl⟩ := drawingsOf_cons_ok hlater
  rw [List.flatMap_cons, List.map_append, List.nodup_append] at hkeys
  -- run the first entry, then the others, then the end of the update
  have hbegin := leads_begin hb
  have hunderway : Underway [] { m with passKeys := some [] } b :=
    ⟨hb, ⟨[], rfl, by simp⟩, by simp, fun hne => absurd rfl hne⟩
  obtain ⟨_, m₁, b₁, happly, hdrew, hleads, hfollows⟩ := hunderway.apply (x := x)
    ((hbegin.drawingOf_eq hb rfl caretStyle x).trans hfirst) (by simp)
  have hrest := obey_spec caretStyle ((y :: rest).map .apply) hdrew
    (by rw [looks_map_apply]; exact hkeys.2.1) (fun d hd hmem => by
      rw [looks_map_apply] at hmem
      exact hkeys.2.2 d.key (List.mem_map_of_mem (mem_looks_of_drawingOf hfirst hd)) d.key hmem rfl)
  rw [hleads.drawingsOf_eq hb hfollows.host, hbegin.drawingsOf_eq hb rfl, hlater] at hrest
  obtain ⟨k, m₂, b₂, hobey, hdrew', _, hfollows'⟩ := hrest
  have hall : applyAll caretStyle (x :: y :: rest) { m with passKeys := some [] }
      = .ok (1 + k) m₂ := (Step.bind_of_ok happly).trans (Step.bind_of_ok hobey)
  obtain ⟨m₃, hupdate', hleads₃⟩ := update_of_ok hall hdrew'.shows
  rw [hupdate] at hupdate'
  cases hupdate'
  intro hreuses
  -- the calls of the first entry are among those of the update
  obtain ⟨new, hnew, hset⟩ := hreuses.calls
  obtain ⟨new₁, hnew₁, hhandles⟩ := hfollows.keeps
  obtain ⟨new₂, hnew₂, _⟩ := hfollows'.keeps.trans (Board.keeps_keepOnly b₂ _)
  rw [hleads₃.shows.holds.calls, hb.holds.calls, hnew₂, hnew₁, ← List.append_assoc] at hnew
  have hmem : ∀ c ∈ new₁, c ∈ new := fun c hc =>
    List.append_cancel_right hnew ▸ List.mem_append_right _ hc
  have hsame := Board.keys_eq_of_handles (hhandles fun c hc => hset c (hmem c hc))
  -- so the key of the second entry is still there, though the first one does not use it
  have hkey : y.base ∈ b₁.keys := by
    rw [hsame, hbears.keys]
    simp [base_mem_drawingOf hb hsome hsecond]
  have hne : ([] : List Drawn) ++ first ≠ [] := by
    rintro hnil
    have := base_mem_drawingOf hb hsome hfirst
    rw [List.nil_append] at hnil
    rw [hnil] at this
    cases this
  obtain ⟨d, hd, heq⟩ := List.mem_map.mp (hdrew.only hne _ hkey)
  refine hkeys.2.2 y.base ?_ y.base ?_ rfl
  · rw [← heq]
    exact List.mem_map_of_mem (mem_looks_of_drawingOf hfirst hd)
  · simp [Entry.looks]

/-- After any history, an update that has run once reuses all decorations when it runs again exactly
if it has one entry at most, or if there is no document. -/
theorem reuse_iff {desk : Desk} (hdesk : desk.Fresh) {acts : List Act} {m : Masking}
    (hm : history { decorations := { desk } } acts = m) {host : String}
    (hhost : m.editor? = some host) (hthere : (m.decorations.desk.editor? host).isSome)
    {xs : List Entry} (hkeys : ((xs.flatMap Entry.looks).map (·.1)).Nodup) {caretStyle : String}
    {n : Nat} {m₁ : Masking} (hfirst : update (applyAll caretStyle xs) m = .ok n m₁) :
    ∃ n' m₂, update (applyAll caretStyle xs) m₁ = .ok n' m₂ ∧
      (Reuses m₁ m₂ ↔ xs.length ≤ 1 ∨ m.decorations.desk.document? host = none) := by
  have hready : Ready m := hm ▸ (ready_of_fresh hdesk).history acts
  rcases hready.cases with ⟨b, hb⟩ | ⟨_, habsent⟩
  -- the host is there, so the first run leads to a board that bears the drawing
  · obtain rfl : b.host = host := Option.some.inj (hb.host.symm.trans hhost)
    rw [← looks_map_apply] at hkeys
    have hspec := update_spec caretStyle (xs.map .apply) hb hkeys
    cases hdrawing : m.drawingsOf caretStyle (xs.map .apply) with
    | error fault =>
      rw [hdrawing] at hspec
      obtain ⟨m', herror⟩ := hspec
      exact absurd (hfirst.symm.trans herror) (by simp)
    | ok drawing =>
      rw [hdrawing] at hspec
      obtain ⟨_, m', b₁, hupdate, hbears, hleads, hfollows⟩ := hspec
      obtain rfl : m₁ = m' :=
        (Step.after_of_ok hfirst).symm.trans (Step.after_of_ok hupdate)
      have hdrawing₁ := (hleads.drawingsOf_eq hb hfollows.host caretStyle (xs.map .apply)).trans
        hdrawing
      have hdocument : m₁.decorations.desk.document? b₁.host
          = m.decorations.desk.document? b.host :=
        hfollows.host ▸ hleads.redrawn.document?_eq
      have hagain := update_spec caretStyle (xs.map .apply) hleads.shows hkeys
      rw [hdrawing₁] at hagain
      obtain ⟨n', m₂, b₂, hupdate₂, _⟩ := hagain
      -- the second run begins there, and draws the same again
      refine ⟨n', m₂, hupdate₂, fun hreuses => ?_, fun hfew => ?_⟩
      · by_contra hnot
        rw [not_or] at hnot
        rcases xs with _ | ⟨x, _ | ⟨y, rest⟩⟩
        · simp at hnot
        · simp at hnot
        · rw [looks_map_apply] at hkeys
          exact not_reuses hleads.shows hdrawing₁ hbears hkeys (hdocument ▸ hnot.2) hupdate₂ hreuses
      · obtain ⟨k, m₃, b₃, hupdate₃, hb₃, hredraws⟩ :=
          update_redraws hleads.shows hdrawing₁ hbears (hdocument ▸ hfew)
        obtain rfl : m₂ = m₃ :=
          (Step.after_of_ok hupdate₂).symm.trans (Step.after_of_ok hupdate₃)
        exact reuses_of_redraws hleads.shows hb₃ hredraws
  · rw [hhost, Option.bind_some] at habsent
    rw [habsent] at hthere
    cases hthere

theorem twoLetters_fresh : Desk.twoLetters.Fresh := by
  refine ⟨Desk.twoLetters_blank, fun name e he => ?_⟩
  simp only [Desk.twoLetters, Desk.editor?, List.lookup_cons, List.lookup_nil] at he
  split at he <;> cases he
  rfl

/-- Masking that has turned to the editor with two letters. -/
def masked : Masking := history { decorations := { desk := Desk.twoLetters } } [.turnTo (some "e")]

/-- An entry with one text for all matches. -/
def swap (pattern text : String) : Json := .obj [("pattern", .str pattern), ("replace", .str text)]

/-- An entry with a text of its own for one match. -/
def either : Json :=
  .obj [("pattern", .str "a|b"), ("replace", .obj [("a", .str "x")])]

/-- The layers of two letters are used again by a second update. -/
theorem either_reuses : ∃ m₁ n m₂,
    update (applyAll "line" (Entry.read? either).toList) masked = .ok 1 m₁ ∧
      update (applyAll "line" (Entry.read? either).toList) m₁ = .ok n m₂ ∧ Reuses m₁ m₂ := by
  have hfirst : Step.outcome (update (applyAll "line" (Entry.read? either).toList)) masked
      = .ok 1 := by
    decide +kernel
  have hhost : masked.editor? = some "e" := by decide +kernel
  have hthere : (masked.decorations.desk.editor? "e").isSome := by decide +kernel
  have hm : history { decorations := { desk := Desk.twoLetters } } [.turnTo (some "e")] = masked :=
    rfl
  obtain ⟨n, m₂, hagain, hiff⟩ := reuse_iff twoLetters_fresh hm hhost hthere (by decide +kernel)
    (Step.eq_of_outcome hfirst)
  exact ⟨_, n, m₂, Step.eq_of_outcome hfirst, hagain, hiff.mpr (Or.inl (by decide +kernel))⟩

/-- Of two entries the second one gets another handle when the update runs again. -/
theorem second_entry_recreated :
    let pass := update (applyAll "line" ([swap "a" "x", swap "b" "y"].filterMap Entry.read?))
    let m₁ := Step.after pass masked
    let m₂ := Step.after pass m₁
    Step.outcome pass masked = .ok 2 ∧ Step.outcome pass m₁ = .ok 2 ∧
      m₁.decorations.handles = [("a", some 1), ("b", some 2)] ∧
      m₂.decorations.handles = [("a", some 1), ("b", some 3)] ∧ ¬ Reuses m₁ m₂ := by
  intro pass m₁ m₂
  have h₁ : m₁.decorations.handles = [("a", some 1), ("b", some 2)] := by decide +kernel
  have h₂ : m₂.decorations.handles = [("a", some 1), ("b", some 3)] := by decide +kernel
  refine ⟨by decide +kernel, by decide +kernel, h₁, h₂, fun hreuses => ?_⟩
  have := hreuses.handles
  rw [h₁, h₂] at this
  exact absurd this (by decide)

end Masking

end Conceal
