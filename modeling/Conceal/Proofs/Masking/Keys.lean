import Conceal.Proofs.Decoration.Returning
import Conceal.Proofs.Masking.Rendering

/-!
The keys that are left when entries are applied, on a host that may refuse any call and whatever the
cache holds. An application that returns uses the key of its pattern and those of the masked texts
with a replacement of their own. Nothing else stays that the current update has not used.
-/

namespace Conceal

/-- A key is used: that of the pattern, or that of a masked text with a replacement of its own. -/
def Entry.Uses (x : Entry) (v : Scene) (key : String) : Prop :=
  key = x.base ∨
    ∃ m ∈ x.masked v, (x.own? v m).isSome ∧ key = Mask.derivedKey x.base (v.textOf m)

/-- The keys that an entry uses are those that it is going to draw. -/
theorem Entry.uses_iff {x : Entry} {v : Scene} {key : String} :
    x.Uses v key ↔ key ∈ (x.plan v (x.masked v)).map (·.1) := by
  simp only [Entry.Uses, Entry.plan, List.map_append, List.map_map, List.map_cons, List.map_nil,
    List.mem_append, List.mem_singleton, List.mem_map, List.mem_eraseDups, List.mem_filter,
    Function.comp_apply]
  rw [or_comm]
  refine or_congr_left ⟨?_, ?_⟩
  · rintro ⟨m, hm, hown, rfl⟩
    exact ⟨_, ⟨m, ⟨hm, hown⟩, rfl⟩, rfl⟩
  · rintro ⟨_, ⟨m, ⟨hm, hown⟩, rfl⟩, rfl⟩
    exact ⟨m, hm, hown, rfl⟩

namespace Entry

open Masking

/-- The stretches of an entry by their keys, as they come up. -/
def collected (x : Entry) (v : Scene) : List (String × List Stretch) :=
  collect x.base (placements (x.decided v)) [(x.base, [])]

variable {x : Entry} {v : Scene}

/-! What is collected is told by the matches that are masked, unless one fails. -/

/-- What is collected is what was planned, with the entry's own key moved to the end. -/
theorem collected_eq_plan (h : failure? (x.decided v) = none) :
    (x.collected v).drop 1 ++ (x.collected v).take 1 = x.plan v (x.masked v) := by
  rw [collected, (placements_of_failure? x h).2]
  exact collect_placementOf (x.masked v)

/-- Stretches are collected for the keys that the entry uses. -/
theorem mem_keys_collected (h : failure? (x.decided v) = none) (key : String) :
    key ∈ (x.collected v).map (·.1) ↔ x.Uses v key := by
  rw [uses_iff, keys_plan, collected, (placements_of_failure? x h).2]

/-- There are as many stretches as masked matches. -/
theorem length_collected (h : failure? (x.decided v) = none) :
    ((x.collected v).flatMap (·.2)).length = (x.masked v).length := by
  rw [collected, length_collect, (placements_of_failure? x h).2, List.length_map]
  exact Nat.zero_add _

end Entry

namespace Masking

open Decorations

/-- A key is used by an entry if it is applied. -/
def Uses (m : Masking) (x : Entry) (caretStyle : String) (key : String) : Prop :=
  ∃ v, m.scene? caretStyle = .ok (some v) ∧ x.Uses v key

variable {m m' m'' : Masking} {host base : String}

/-! ## Creating decorations -/

/-- An operation on the decorations leaves the rest of the masking. -/
theorem onDecorations_eq_ok {α : Type} {act : Step Decorations α} {a : α}
    (h : onDecorations act m = .ok a m') :
    ∃ d, act m.decorations = .ok a d ∧ m' = { m with decorations := d } := by
  unfold onDecorations Step.on at h
  cases hact : act m.decorations with
  | ok a' d =>
    rw [hact] at h
    cases h
    exact ⟨d, rfl, rfl⟩
  | error fault d =>
    rw [hact] at h
    cases h

theorem onDesk_eq_ok {α : Type} {act : Step Desk α} {a : α} (h : onDesk act m = .ok a m') :
    ∃ desk, act m.decorations.desk = .ok a desk ∧ m' = { m with decorations.desk := desk } := by
  obtain ⟨d, hdesk, rfl⟩ := onDecorations_eq_ok h
  obtain ⟨desk, hact, rfl⟩ := Decorations.onDesk_eq_ok hdesk
  exact ⟨desk, hact, rfl⟩

/-- Some keys were asked for, whose decorations were created by some calls where they were
missing. -/
structure Asked (host : String) (m : Masking) (asked : List String) (created : List Call)
    (m' : Masking) : Prop where
  obliged : Obliged host m.decorations created m'.decorations
  creates : ∀ c ∈ created, ∃ handle look, c = .create handle look
  keys : ∀ k, k ∈ m'.decorations.keys ↔ k ∈ m.decorations.keys ∨ k ∈ asked
  named : m.decorations.desk.names host = true →
    ∀ k ∈ asked, (m'.decorations.handle? k).isSome
  others : ∀ k ∉ asked, m'.decorations.handle? k = m.decorations.handle? k
  scopes : m'.scopes = m.scopes
  passKeys : m'.passKeys = m.passKeys

variable {asked asked' : List String} {created created' : List Call}

/-- Nothing is asked for where no call is made and no key changes. -/
theorem asked_nil (hobliged : Obliged host m.decorations [] m'.decorations)
    (hhandles : m'.decorations.handles = m.decorations.handles) (hscopes : m'.scopes = m.scopes)
    (hkeys : m'.passKeys = m.passKeys) : Asked host m [] [] m' where
  obliged := hobliged
  creates := by simp
  keys k := by simp [Decorations.keys, hhandles]
  named := by simp
  others k _ := handle?_of_handles hhandles k
  scopes := hscopes
  passKeys := hkeys

theorem Asked.refl (host : String) (m : Masking) : Asked host m [] [] m :=
  asked_nil (Obliged.refl host _) rfl rfl rfl

/-- Keys that were asked for, and then more keys, are keys that were asked for. -/
theorem Asked.trans (h : Asked host m asked created m') (h' : Asked host m' asked' created' m'') :
    Asked host m (asked ++ asked') (created ++ created') m'' where
  obliged := h.obliged.trans h'.obliged
  creates := List.forall_mem_append.mpr ⟨h.creates, h'.creates⟩
  keys k := by rw [h'.keys, h.keys, List.mem_append, or_assoc]
  named hnames k hk := by
    by_cases hk' : k ∈ asked'
    · exact h'.named (h.obliged.desk.names_eq.trans hnames) k hk'
    · rw [h'.others k hk']
      exact h.named hnames k ((List.mem_append.mp hk).resolve_right hk')
  others k hk := by
    rw [List.mem_append, not_or] at hk
    exact (h'.others k hk.2).trans (h.others k hk.1)
  scopes := h'.scopes.trans h.scopes
  passKeys := h'.passKeys.trans h.passKeys

theorem Asked.stands (h : Asked host m asked created m') (hstands : m.decorations.Stands host) :
    m'.decorations.Stands host :=
  h.obliged.stands hstands

/-- Asking for a layer asks for its key. -/
theorem asked_getOrCreate (h : m.decorations.Stands host) {key : String} {look : Look}
    {handle : Option Nat} (hok : onDecorations (getOrCreate key look) m = .ok handle m') :
    ∃ created, Asked host m [key] created m' := by
  obtain ⟨d, hmade, rfl⟩ := onDecorations_eq_ok hok
  obtain ⟨created, hobliged, hcreates, hkeys, hnamed, hothers⟩ := obliged_getOrCreate h hmade
  refine ⟨created, hobliged, hcreates, fun k => ?_, fun hnames k hk => ?_, fun k hk => ?_, rfl, rfl⟩
  · rw [hkeys k, List.mem_singleton, or_comm]
  · rw [List.mem_singleton.mp hk]
    exact hnamed hnames
  · exact hothers k fun heq => hk (List.mem_singleton.mpr heq)

/-- A document is answered without a key being asked for. -/
theorem asked_snapshot (h : m.decorations.Stands host) {document : Option Document}
    (hok : onDesk (Desk.snapshot host) m = .ok document m') :
    document = m.decorations.desk.document? host ∧ Asked host m [] [] m' := by
  obtain ⟨desk, hanswer, rfl⟩ := onDesk_eq_ok hok
  rw [Desk.snapshot_eq] at hanswer
  cases hanswer
  exact ⟨rfl, asked_nil ⟨Desk.obliged_snapshot h.there, rfl⟩ rfl rfl rfl⟩

/-- Selections are answered without a key being asked for. -/
theorem asked_selections (h : m.decorations.Stands host) {ends : List (Int × Int)}
    (hok : onDesk (Desk.selections host) m = .ok ends m') :
    m.decorations.desk.ends host = .ok ends ∧ Asked host m [] [] m' := by
  obtain ⟨desk, hanswer, rfl⟩ := onDesk_eq_ok hok
  exact ⟨(Desk.selections_eq_ok_iff h.there).mp ⟨desk, hanswer⟩,
    asked_nil ⟨Desk.obliged_selections h.there hanswer, rfl⟩ rfl rfl rfl⟩

/-- The keys of what is collected are those known before and those asked for. -/
theorem asked_carryOut {ds : List Decision} {found answer : List (String × List Stretch)}
    (h : m.decorations.Stands host) (hbase : base ∈ found.map (·.1))
    (hok : carryOut base ds found m = .ok answer m') :
    failure? ds = none ∧ answer = collect base (placements ds) found ∧
      ∃ asked created, Asked host m asked created m' ∧
        ∀ k, k ∈ answer.map (·.1) ↔ k ∈ found.map (·.1) ∨ k ∈ asked := by
  induction ds generalizing m found with
  | nil =>
    cases hok
    exact ⟨rfl, rfl, [], [], Asked.refl host m', by simp⟩
  | cons d rest ih =>
    cases d with
    | notice n =>
      obtain ⟨hfailure, hanswer, asked, created, hasked, hkeys⟩ :=
        ih (m := { m with notices := m.notices ++ [n] }) h hbase hok
      exact ⟨hfailure, hanswer, asked, created, ⟨hasked.obliged, hasked.creates, hasked.keys,
        hasked.named, hasked.others, hasked.scopes, hasked.passKeys⟩, hkeys⟩
    | fail fault => cases hok
    | place p =>
      have hbase' : base ∈ (addStretch found (keyOf base p) p.stretch).map (·.1) :=
        mem_keys_addStretch.mpr (Or.inr hbase)
      simp only [carryOut] at hok
      by_cases hmem : keyOf base p ∈ found.map (·.1)
      · rw [List.contains_iff_mem.mpr hmem] at hok
        obtain ⟨hfailure, hanswer, asked, created, hasked, hkeys⟩ := ih h hbase' hok
        refine ⟨hfailure, hanswer, asked, created, hasked, fun k => ?_⟩
        rw [hkeys, mem_keys_addStretch]
        refine or_congr_left ⟨fun hk => hk.elim (fun heq => heq ▸ hmem) id, Or.inr⟩
      · have hnot : (found.map (·.1)).contains (keyOf base p) = false := by
          rw [← Bool.not_eq_true, List.contains_iff_mem]
          exact hmem
        cases hown : p.own with
        | none => exact absurd (keyOf_of_own_eq_none hown ▸ hbase) hmem
        | some own =>
          -- the key is new, so its decoration is asked for
          rw [hnot, hown] at hok
          obtain ⟨_, m₁, hmade, hrest⟩ := Step.exists_of_bind_eq_ok hok
          obtain ⟨created₁, hasked₁⟩ := asked_getOrCreate h hmade
          obtain ⟨hfailure, hanswer, asked, created, hasked, hkeys⟩ :=
            ih (hasked₁.stands h) hbase' hrest
          refine ⟨hfailure, hanswer, _, _, hasked₁.trans hasked, fun k => ?_⟩
          rw [hkeys, mem_keys_addStretch, List.singleton_append, List.mem_cons, or_assoc,
            or_left_comm]

/-! ## Applying an entry -/

/-- Keys with a handle are given their stretches. -/
theorem obliged_renderEach {found : List (String × List Stretch)} (h : m.decorations.Stands host)
    (hok : renderEach found m = .ok () m') :
    ∃ given, Obliged host m.decorations given m'.decorations ∧
      m'.decorations.handles = m.decorations.handles ∧ m'.scopes = m.scopes ∧
      m'.passKeys = m.passKeys ∧
      ∀ handle : String → Nat, (∀ d ∈ found, m.decorations.handle? d.1 = some (handle d.1)) →
        given = found.map fun d => .set (handle d.1) d.2 := by
  induction found generalizing m with
  | nil =>
    cases hok
    exact ⟨[], Obliged.refl host _, rfl, rfl, rfl, fun _ _ => rfl⟩
  | cons d rest ih =>
    obtain ⟨_, m₁, hrender, hrest⟩ := Step.exists_of_bind_eq_ok hok
    obtain ⟨d₁, hdrawn, rfl⟩ := onDecorations_eq_ok hrender
    obtain ⟨first, hobliged₁, hhandles₁, hfirst⟩ := obliged_render h hdrawn
    obtain ⟨later, hobliged₂, hhandles₂, hscopes, hkeys, hlater⟩ := ih (hobliged₁.stands h) hrest
    refine ⟨first ++ later, hobliged₁.trans hobliged₂, hhandles₂.trans hhandles₁, hscopes, hkeys,
      fun handle hhandle => ?_⟩
    rw [hfirst _ (hhandle d List.mem_cons_self), hlater handle fun e he =>
      (handle?_of_handles hhandles₁ e.1).trans (hhandle e (List.mem_cons_of_mem d he))]
    rfl

/-- What an entry leaves that was applied in a scene: some decorations were created, then the keys
were given their stretches, and at last the keys went that neither the entry nor the current update
has used. -/
structure Ran (host : String) (m : Masking) (x : Entry) (v : Scene) (used : List String)
    (created given : List Call) (gone : List Nat) (m' : Masking) : Prop where
  decided : failure? (x.decided v) = none
  uses : ∀ key, key ∈ used ↔ x.Uses v key
  obliged : Obliged host m.decorations (created ++ given ++ gone.flatMap removal) m'.decorations
  creates : ∀ c ∈ created, ∃ handle look, c = .create handle look
  given : m.decorations.desk.names host = true → ∃ handle : String → Nat,
    (∀ d ∈ x.plan v (x.masked v), m'.decorations.handle? d.1 = some (handle d.1)) ∧
      given = (x.plan v (x.masked v)).map fun d => .set (handle d.1) d.2
  gone : ∀ old ∈ gone, ∃ key, key ∉ m.passKeys.getD [] ++ used ∧
    m.decorations.handle? key = some old
  keys : ∀ key, key ∈ m'.decorations.keys ↔
    (key ∈ m.decorations.keys ∨ key ∈ used) ∧ key ∈ m.passKeys.getD [] ++ used
  scopes : m'.scopes = m.scopes
  passKeys : m'.passKeys = m.passKeys.map (· ++ used)

/-- The pattern's own decoration is asked for before all else. -/
theorem Asked.ran {x : Entry} {v : Scene} {used : List String} {created created' given : List Call}
    {gone : List Nat} (h : Asked host m [x.base] created m')
    (hran : Ran host m' x v used created' given gone m'') :
    Ran host m x v used (created ++ created') given gone m'' where
  decided := hran.decided
  uses := hran.uses
  obliged := by simpa only [List.append_assoc] using h.obliged.trans hran.obliged
  creates := List.forall_mem_append.mpr ⟨h.creates, hran.creates⟩
  given hnames := hran.given (h.obliged.desk.names_eq.trans hnames)
  gone old hold := by
    obtain ⟨key, hkey, hhandle⟩ := hran.gone old hold
    rw [h.passKeys] at hkey
    have hne : key ∉ [x.base] := fun hmem =>
      hkey (List.mem_append_right _ ((hran.uses key).mpr (Or.inl (List.mem_singleton.mp hmem))))
    exact ⟨key, hkey, (h.others key hne).symm.trans hhandle⟩
  keys key := by
    have hbase : key ∈ [x.base] → key ∈ used := fun hmem =>
      (hran.uses key).mpr (Or.inl (List.mem_singleton.mp hmem))
    rw [hran.keys, h.keys, h.passKeys, or_assoc, or_iff_right_of_imp hbase]
  scopes := hran.scopes.trans h.scopes
  passKeys := by rw [hran.passKeys, h.passKeys]

/-- Drawing that returns. -/
theorem ran_draw {x : Entry} {v : Scene} {n : Nat} (h : m.decorations.Stands host)
    (hbase : x.base ∈ m.decorations.keys)
    (hnamed : m.decorations.desk.names host = true → (m.decorations.handle? x.base).isSome)
    (hok : draw x.base (x.decided v) m = .ok n m') :
    n = (x.masked v).length ∧
      ∃ used created given gone, Ran host m x v used created given gone m' := by
  -- one state after each part: the keys are asked for, drawn, noted, and the rest is removed
  obtain ⟨found, m₁, hcarried, hok₁⟩ := Step.exists_of_bind_eq_ok hok
  obtain ⟨_, m₂, hrendered, hok₂⟩ := Step.exists_of_bind_eq_ok hok₁
  obtain ⟨hdecided, hfound, asked, created, hasked, hkeys⟩ :=
    asked_carryOut h (by simp) hcarried
  obtain ⟨given, hobliged₂, hhandles₂, hscopes₂, hpass₂, hgiven⟩ :=
    obliged_renderEach (hasked.stands h) hrendered
  rw [Step.bind_of_ok (noteKeys_apply (hpass₂.trans hasked.passKeys) (found.map (·.1)))] at hok₂
  obtain ⟨evicted, m₃, hevicted, hdone⟩ := Step.exists_of_bind_eq_ok hok₂
  obtain ⟨d, hremoved, rfl⟩ := onDecorations_eq_ok hevicted
  obtain ⟨gone, hobliged₃, hgone, hhandles₃⟩ :=
    obliged_evictAllExcept (hobliged₂.stands (hasked.stands h)) hremoved
  cases hdone
  obtain rfl : found = x.collected v := hfound
  have hplan := Entry.collected_eq_plan hdecided
  have huses := Entry.mem_keys_collected hdecided
  refine ⟨Entry.length_collected hdecided, (x.collected v).map (·.1), created, given, gone,
    hdecided, huses, (hasked.obliged.trans hobliged₂).trans hobliged₃, hasked.creates,
    fun hnames => ?_, ?_, ?_, hscopes₂.trans hasked.scopes, rfl⟩
  · -- every key of the plan has a handle by now, and keeps it
    let handle (key : String) : Nat := (m₁.decorations.handle? key).getD 0
    have hhandle : ∀ e ∈ x.plan v (x.masked v),
        m₁.decorations.handle? e.1 = some (handle e.1) := by
      intro e he
      have hmem : e.1 ∈ (x.collected v).map (·.1) :=
        (huses e.1).mpr (Entry.uses_iff.mpr (List.mem_map_of_mem he))
      have hsome : (m₁.decorations.handle? e.1).isSome := by
        by_cases hnew : e.1 ∈ asked
        · exact hasked.named hnames e.1 hnew
        · rw [hasked.others e.1 hnew]
          have heq := ((hkeys e.1).mp hmem).resolve_right hnew
          rw [List.mem_singleton.mp heq]
          exact hnamed hnames
      obtain ⟨known, hknown⟩ := Option.isSome_iff_exists.mp hsome
      simp only [handle, hknown, Option.getD_some]
    refine ⟨handle, fun e he => ?_, ?_⟩
    · have hmem : e.1 ∈ m.passKeys.getD [] ++ (x.collected v).map (·.1) :=
        List.mem_append_right _ ((huses e.1).mpr (Entry.uses_iff.mpr (List.mem_map_of_mem he)))
      rw [handle?_of_filter hhandles₃ hmem, handle?_of_handles hhandles₂]
      exact hhandle e he
    · rw [← hplan]
      rw [← hplan] at hhandle
      exact hgiven handle hhandle
  · intro old hold
    -- what is removed has a key that was not asked for, so that its handle is an old one
    obtain ⟨key, hkey, hwas⟩ := hgone old hold
    have hnew : key ∉ asked := fun hmem =>
      hkey (List.mem_append_right _ ((hkeys key).mpr (Or.inr hmem)))
    refine ⟨key, hkey, ?_⟩
    rw [← hasked.others key hnew, ← handle?_of_handles hhandles₂]
    exact hwas
  · intro key
    -- of the keys, those stay that were noted; the base is one of them
    rw [mem_keys_of_filter hhandles₃]
    refine and_congr_left fun _ => ?_
    show key ∈ m₂.decorations.handles.map (·.1) ↔ _
    rw [hhandles₂]
    show key ∈ m₁.decorations.keys ↔ _
    rw [hasked.keys, hkeys, ← or_assoc]
    refine or_congr_left ⟨Or.inl, fun hk => hk.elim id fun heq => ?_⟩
    rw [List.mem_singleton.mp heq]
    exact hbase

/-- An application that returns, where there is a document. -/
theorem ran_apply {x : Entry} {caretStyle : String} {n : Nat} (h : m.decorations.Stands host)
    (hdocument : (m.decorations.desk.document? host).isSome)
    (hok : apply x.pattern x.mask caretStyle m = .ok n m') :
    ∃ v used created given gone, m.scene? caretStyle = .ok (some v) ∧
      n = (x.masked v).length ∧ Ran host m x v used created given gone m' := by
  obtain ⟨document, hdocument⟩ := Option.isSome_iff_exists.mp hdocument
  have heditor : m.editor? = some host := h.host
  unfold apply at hok
  rw [Step.bind_of_ok (Step.get_apply m)] at hok
  simp only [heditor] at hok
  obtain ⟨_, m₁, hsnapshot, hok₁⟩ := Step.exists_of_bind_eq_ok hok
  -- the text, the key of the base and the carets are asked for, in this order
  obtain ⟨rfl, hasked₁⟩ := asked_snapshot h hsnapshot
  simp only [hdocument] at hok₁
  obtain ⟨_, m₂, hmade, hok₂⟩ := Step.exists_of_bind_eq_ok hok₁
  obtain ⟨created, hasked₂⟩ := asked_getOrCreate (hasked₁.stands h) hmade
  obtain ⟨ends, m₃, hselections, hok₃⟩ := Step.exists_of_bind_eq_ok hok₂
  have hstands₂ := hasked₂.stands (hasked₁.stands h)
  obtain ⟨hends, hasked₃⟩ := asked_selections hstands₂ hselections
  have hasked := (hasked₁.trans hasked₂).trans hasked₃
  rw [hasked₂.obliged.desk.redrawn.ends_eq, hasked₁.obliged.desk.redrawn.ends_eq] at hends
  rw [Step.bind_of_ok (Step.get_apply m₃), hasked.scopes] at hok₃
  let v : Scene := ⟨document, ends, m.scopes, caretStyle⟩
  have hscene : m.scene? caretStyle = .ok (some v) := by
    simp only [scene?, heditor, hdocument, hends, Except.map, v]
  obtain ⟨hcount, used, created', given, gone, hran⟩ :=
    ran_draw (x := x) (v := v) (hasked.stands h) ((hasked.keys x.base).mpr (Or.inr (by simp)))
      (fun hnames => hasked.named (hasked.obliged.desk.names_eq ▸ hnames) x.base (by simp)) hok₃
  exact ⟨v, used, _, given, gone, hscene, hcount, Asked.ran (by simpa using hasked) hran⟩

end Masking

end Conceal
