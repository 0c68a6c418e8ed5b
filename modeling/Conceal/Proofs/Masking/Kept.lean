import Conceal.Proofs.Masking.Granting
import Conceal.Proofs.Masking.Keys
import Conceal.Proofs.Masking.Reuse

/-!
What applications and updates leave in the cache. After an application alone it holds the keys that
the entry uses, and while an update runs, and when it is over, those that its entries have used so
far. Main statement: `keys_left`.
-/

namespace Conceal

namespace Masking

open Decorations

variable {m m' : Masking} {host : String}

/-! ## The same answers -/

/-- A host that was worked with is still there. -/
theorem Works.stands (h : Works m m') (hstands : m.decorations.Stands host) :
    m'.decorations.Stands host where
  there := by
    have hsame := congrArg Option.isSome (h.decorations.desk.face host)
    rw [Option.isSome_map, Option.isSome_map] at hsame
    rw [hsame]
    exact hstands.there
  host := h.decorations.host.trans hstands.host

/-- Work with the host changes no document. -/
theorem Works.document?_eq (h : Works m m') (name : String) :
    m'.decorations.desk.document? name = m.decorations.desk.document? name :=
  h.decorations.desk.document?_eq name

/-- What masks are decided for is the same after contact with the host. -/
theorem Works.scene?_eq (h : Works m m') (caretStyle : String) :
    m'.scene? caretStyle = m.scene? caretStyle := by
  have heditor : m'.editor? = m.editor? := h.decorations.host
  simp only [scene?, heditor, h.document?_eq, h.decorations.desk.ends_eq, h.scopes]

/-- Work with the host changes nothing about the keys that an entry uses. -/
theorem Works.uses_iff (h : Works m m') {x : Entry} {caretStyle key : String} :
    m'.Uses x caretStyle key ↔ m.Uses x caretStyle key := by
  rw [Uses, Uses, h.scene?_eq]

/-- The keys of an update do not matter to what is used. -/
theorem works_passKeys (m : Masking) (keys : Option (List String)) :
    Works m { m with passKeys := keys } :=
  ⟨rfl, Decorations.Works.refl _⟩

/-- An application that ends has worked with the host. -/
theorem works_of_apply {x : Entry} {caretStyle : String} {n : Nat}
    (h : apply x.pattern x.mask caretStyle m = .ok n m') : Works m m' := by
  have hworks := works_apply x.pattern x.mask caretStyle m
  rwa [Step.after_of_ok h] at hworks

/-! ## Keys -/

/-- Where there is no document, an application does nothing. -/
theorem apply_of_no_document (hhost : m.editor? = some host)
    (hnone : m.decorations.desk.document? host = none) {x : Entry} {caretStyle : String} {n : Nat}
    (hok : apply x.pattern x.mask caretStyle m = .ok n m') :
    m'.decorations.handles = m.decorations.handles ∧ m'.passKeys = m.passKeys := by
  unfold apply at hok
  rw [Step.bind_of_ok (Step.get_apply m)] at hok
  simp only [hhost] at hok
  rw [Step.bind_of_ok (onDesk_of_ok (Desk.snapshot_eq host m.decorations.desk)), hnone] at hok
  cases hok
  exact ⟨rfl, rfl⟩

/-- What one application leaves: the keys that it uses are noted where an update is running, and of
the others those stay that the update has noted before. -/
theorem keys_apply {x : Entry} {caretStyle : String} {n : Nat} (h : m.decorations.Stands host)
    (hdocument : (m.decorations.desk.document? host).isSome)
    (hok : apply x.pattern x.mask caretStyle m = .ok n m') :
    ∃ used, (∀ key, key ∈ used ↔ m.Uses x caretStyle key) ∧
      m'.passKeys = m.passKeys.map (· ++ used) ∧
      ∀ key, key ∈ m'.decorations.keys ↔
        (key ∈ m.decorations.keys ∨ key ∈ used) ∧ key ∈ m.passKeys.getD [] ++ used := by
  obtain ⟨v, used, created, given, gone, hscene, -, hran⟩ := ran_apply h hdocument hok
  refine ⟨used, fun key => ?_, hran.passKeys, hran.keys⟩
  rw [hran.uses]
  constructor
  · exact fun hkey => ⟨v, hscene, hkey⟩
  · rintro ⟨v', hscene', hkey⟩
    rw [hscene] at hscene'
    cases hscene'
    exact hkey

/-- Applies entries one after the other, each for its caret style. -/
def applyEach : List (Entry × String) → Step Masking Unit
  | [] => return
  | (x, caretStyle) :: rest => do
    let _ ← apply x.pattern x.mask caretStyle
    applyEach rest

theorem works_applyEach (xs : List (Entry × String)) : Step.Obeys Works (applyEach xs) := by
  induction xs with
  | nil => exact Step.obeys_pure _
  | cons a rest ih => exact (works_apply _ _ _).bind fun _ => ih

/-- While an update runs, the keys that its entries use are noted, and from the first one on nothing
else stays but what was noted before. -/
theorem keys_applyEach {xs : List (Entry × String)} {noted : List String}
    (h : m.decorations.Stands host) (hdocument : (m.decorations.desk.document? host).isSome)
    (hnoted : m.passKeys = some noted) (hok : applyEach xs m = .ok () m') :
    ∃ used, (∀ key, key ∈ used ↔ ∃ a ∈ xs, m.Uses a.1 a.2 key) ∧
      m'.passKeys = some (noted ++ used) ∧
      (xs ≠ [] → ∀ key, key ∈ m'.decorations.keys ↔
        key ∈ used ∨ key ∈ m.decorations.keys ∧ key ∈ noted) := by
  induction xs generalizing m noted with
  | nil =>
    cases hok
    exact ⟨[], by simp, by simpa using hnoted, fun hne => absurd rfl hne⟩
  | cons a rest ih =>
    obtain ⟨_, m₁, hfirst, hrest⟩ := Step.exists_of_bind_eq_ok hok
    have hworks := works_of_apply hfirst
    obtain ⟨used₁, huses₁, hpass₁, hkeys₁⟩ := keys_apply h hdocument hfirst
    rw [hnoted] at hpass₁ hkeys₁
    obtain ⟨used₂, huses₂, hpass₂, hkeys₂⟩ :=
      ih (hworks.stands h) ((hworks.document?_eq host).symm ▸ hdocument) hpass₁ hrest
    refine ⟨used₁ ++ used₂, fun key => ?_, ?_, fun _ key => ?_⟩
    · simp only [List.mem_append, huses₁, huses₂, hworks.uses_iff, List.exists_mem_cons_iff]
    · rw [hpass₂, List.append_assoc]
    · -- what the first one leaves, and then what the others do
      have hleft : key ∈ m₁.decorations.keys ↔
          key ∈ used₁ ∨ key ∈ m.decorations.keys ∧ key ∈ noted := by
        rw [hkeys₁, Option.getD_some, List.mem_append, ← and_or_right, or_comm]
      rw [List.mem_append]
      by_cases hlast : rest = []
      · subst hlast
        have hnone : key ∉ used₂ := fun hmem => by simpa using (huses₂ key).mp hmem
        cases hrest
        rw [hleft, or_iff_left hnone]
      · have hnoted : key ∈ m₁.decorations.keys → key ∈ noted ++ used₁ := fun hkey =>
          List.mem_append.mpr ((hleft.mp hkey).elim Or.inr fun hkept => Or.inl hkept.2)
        rw [hkeys₂ hlast, and_iff_left_of_imp hnoted, hleft]
        exact or_left_comm.trans or_assoc.symm

/-! ## The end of an update -/

/-- The end of an update removes what its entries have not used. -/
theorem keys_update {α : Type} {body : Step Masking α} {answer : α} {m₁ : Masking}
    (hbody : body { m with passKeys := some [] } = .ok answer m₁)
    (h : m₁.decorations.Stands host) (hok : update body m = .ok answer m') :
    m'.passKeys = m.passKeys ∧
      ∀ key, key ∈ m'.decorations.keys ↔
        key ∈ m₁.decorations.keys ∧ key ∈ m₁.passKeys.getD [] := by
  have heditor : m₁.editor? = some host := h.host
  unfold update at hok
  simp only at hok
  rw [Step.bind_of_ok hbody, Step.bind_of_ok (Step.get_apply m₁), heditor] at hok
  simp only [Option.isSome_some, if_true] at hok
  split at hok
  next hwhole =>
    obtain ⟨_, m₂, hevicted, hdone⟩ := Step.exists_of_bind_eq_ok hwhole
    obtain ⟨d, hremoved, rfl⟩ := onDecorations_eq_ok hevicted
    obtain ⟨gone, hobliged, hgone, hhandles⟩ := obliged_evictAllExcept h hremoved
    cases hdone
    cases hok
    exact ⟨rfl, fun key => mem_keys_of_filter hhandles⟩
  · cases hok

/-- With no key in excess, the end of an update changes nothing. -/
theorem update_of_subset {α : Type} {body : Step Masking α} {answer : α} {m₁ : Masking}
    (hbody : body { m with passKeys := some [] } = .ok answer m₁)
    (hkeys : ∀ key ∈ m₁.decorations.keys, key ∈ m₁.passKeys.getD []) :
    update body m = .ok answer { m₁ with passKeys := m.passKeys } := by
  have hwhole : (do
      let answer ← body
      let m ← get
      if m.editor?.isSome then
        let _ ← onDecorations (Decorations.evictAllExcept (m.passKeys.getD []))
      return answer : Step Masking α) { m with passKeys := some [] } = .ok answer m₁ := by
    rw [Step.bind_of_ok hbody, Step.bind_of_ok (Step.get_apply m₁)]
    split
    · rw [Step.bind_of_ok (onDecorations_of_ok (evictAllExcept_of_subset hkeys))]
      rfl
    · rfl
  unfold update
  dsimp only
  rw [hwhole]

/-! ## The same application again -/

section again

variable {found : List (String × List Stretch)}

/-- Decisions for which all layers are there are carried out without a call. -/
theorem carryOut_again {base : String} {ds : List Decision} (hhost : m.editor? = some host)
    (hdecided : failure? ds = none)
    (hthere : ∀ key ∈ (collect base (placements ds) found).map (·.1),
      (m.decorations.handle? key).isSome) :
    ∃ m', carryOut base ds found m = .ok (collect base (placements ds) found) m' ∧
      m'.decorations = m.decorations ∧ m'.scopes = m.scopes ∧ m'.passKeys = m.passKeys := by
  induction ds generalizing m found with
  | nil => exact ⟨m, rfl, rfl, rfl, rfl⟩
  | cons d rest ih =>
    cases d with
    | notice n => exact ih (m := { m with notices := m.notices ++ [n] }) hhost hdecided hthere
    | fail fault => cases hdecided
    | place p =>
      have hrest := ih (m := m) hhost hdecided hthere
      simp only [carryOut]
      cases hknown : (found.map (·.1)).contains (keyOf base p) with
      | true => exact hrest
      | false =>
        cases hown : p.own with
        | none => exact hrest
        | some own =>
          -- the key has its handle already
          have hmem :
              keyOf base p ∈ (collect base (placements (.place p :: rest)) found).map (·.1) :=
            mem_keys_collect.mpr (Or.inr (by simp [placements]))
          obtain ⟨handle, hhandle⟩ := Option.isSome_iff_exists.mp (hthere _ hmem)
          have hmade : onDecorations (getOrCreate (keyOf base p) (Mask.overrideLook own.2)) m =
              .ok (some handle) m := onDecorations_of_ok (getOrCreate_of_handle hhost hhandle)
          obtain ⟨m', hok, hsame⟩ := hrest
          exact ⟨m', (Step.bind_of_ok hmade).trans hok, hsame⟩

/-- Drawing keys that have handles ends, if the host grants the calls. -/
theorem exists_renderEach {handle : String → Nat} (h : m.decorations.Stands host)
    (hhandle : ∀ d ∈ found, m.decorations.handle? d.1 = some (handle d.1))
    (hgranted : ∀ d ∈ found, m.decorations.desk.grants host (.set (handle d.1) d.2) = true) :
    ∃ m', renderEach found m = .ok () m' := by
  induction found generalizing m with
  | nil => exact ⟨m, rfl⟩
  | cons d rest ih =>
    obtain ⟨d₁, hrender⟩ := exists_render h.host (hhandle d List.mem_cons_self)
      (hgranted d List.mem_cons_self)
    obtain ⟨_, hobliged, hhandles, -⟩ := obliged_render h hrender
    obtain ⟨m', hrest⟩ := ih (m := { m with decorations := d₁ }) (hobliged.stands h)
      (fun e he => (handle?_of_handles hhandles e.1).trans (hhandle e (List.mem_cons_of_mem d he)))
      (fun e he => hobliged.desk.grants_eq ▸ hgranted e (List.mem_cons_of_mem d he))
    exact ⟨m', (Step.bind_of_ok (onDecorations_of_ok hrender)).trans hrest⟩

end again

section settled

variable {x : Entry} {v : Scene} {handle : String → Nat}

/-- All keys that an entry uses have handles, the host grants what they are given, and every other
key may stay. -/
structure Settled (host : String) (m : Masking) (x : Entry) (v : Scene) (handle : String → Nat) :
    Prop where
  stands : m.decorations.Stands host
  handles : ∀ d ∈ x.plan v (x.masked v), m.decorations.handle? d.1 = some (handle d.1)
  granted : ∀ d ∈ x.plan v (x.masked v),
    m.decorations.desk.grants host (.set (handle d.1) d.2) = true
  keys : ∀ key ∈ m.decorations.keys, key ∈ m.passKeys.getD [] ∨ x.Uses v key

/-- It stays so when the host is asked for something. -/
theorem Settled.asked (h : Settled host m x v handle) (hasked : Asked host m [] [] m') :
    Settled host m' x v handle where
  stands := hasked.stands h.stands
  handles d hd := (hasked.others d.1 (by simp)).trans (h.handles d hd)
  granted d hd := hasked.obliged.desk.grants_eq ▸ h.granted d hd
  keys key hkey := by
    rw [hasked.passKeys]
    exact h.keys key (by simpa using (hasked.keys key).mp hkey)

/-- The keys are given their stretches, and nothing else is done. -/
theorem Settled.draw (h : Settled host m x v handle) (hdecided : failure? (x.decided v) = none) :
    ∃ m', draw x.base (x.decided v) m = .ok (x.masked v).length m' ∧
      Obliged host m.decorations
        ((x.plan v (x.masked v)).map fun d => .set (handle d.1) d.2) m'.decorations ∧
      m'.decorations.handles = m.decorations.handles := by
  have huses := Entry.mem_keys_collected hdecided
  have hthere : ∀ key ∈ (x.collected v).map (·.1), (m.decorations.handle? key).isSome := by
    intro key hkey
    obtain ⟨d, hd, rfl⟩ := List.mem_map.mp (Entry.uses_iff.mp ((huses key).mp hkey))
    rw [h.handles d hd]
    rfl
  obtain ⟨m₁, hcarried, hdecorations₁, -, hpass₁⟩ : ∃ m₁,
      carryOut x.base (x.decided v) [(x.base, [])] m = .ok (x.collected v) m₁ ∧
        m₁.decorations = m.decorations ∧ m₁.scopes = m.scopes ∧ m₁.passKeys = m.passKeys :=
    carryOut_again h.stands.host hdecided hthere
  have hstands₁ : m₁.decorations.Stands host := hdecorations₁ ▸ h.stands
  have hhandle₁ : ∀ d ∈ x.plan v (x.masked v),
      m₁.decorations.handle? d.1 = some (handle d.1) := hdecorations₁ ▸ h.handles
  obtain ⟨m₂, hrendered⟩ := exists_renderEach hstands₁ hhandle₁ (hdecorations₁ ▸ h.granted)
  obtain ⟨given, hobliged, hhandles₂, -, hpass₂, hgiven⟩ := obliged_renderEach hstands₁ hrendered
  rw [hgiven handle hhandle₁, hdecorations₁] at hobliged
  rw [hdecorations₁] at hhandles₂
  -- no key is in excess
  let used := (x.collected v).map (·.1)
  let noted : Masking := { m₂ with passKeys := m.passKeys.map (· ++ used) }
  have hevicted : onDecorations (evictAllExcept (m.passKeys.getD [] ++ used)) noted =
      .ok [] noted := by
    refine onDecorations_of_ok (evictAllExcept_of_subset fun key hkey => ?_)
    rw [Decorations.keys, hhandles₂] at hkey
    rw [List.mem_append, huses]
    exact h.keys key hkey
  refine ⟨noted, ?_, hobliged, hhandles₂⟩
  unfold Masking.draw
  rw [Step.bind_of_ok hcarried, Entry.collected_eq_plan hdecided, Step.bind_of_ok hrendered,
    Step.bind_of_ok (noteKeys_apply (hpass₂.trans hpass₁) used), Step.bind_of_ok hevicted,
    Entry.length_collected hdecided]
  rfl

/-- The same entry applied again. -/
theorem Settled.apply {caretStyle : String} (h : Settled host m x v handle)
    (hscene : m.scene? caretStyle = .ok (some v)) (hdecided : failure? (x.decided v) = none) :
    ∃ m', apply x.pattern x.mask caretStyle m = .ok (x.masked v).length m' ∧
      Obliged host m.decorations
        ((x.plan v (x.masked v)).map fun d => .set (handle d.1) d.2) m'.decorations ∧
      m'.decorations.handles = m.decorations.handles := by
  have heditor : m.editor? = some host := h.stands.host
  -- what the host answers is what the scene was made of
  simp only [scene?, heditor] at hscene
  cases hdocument : m.decorations.desk.document? host with
  | none => simp [hdocument] at hscene
  | some document =>
    cases hends : m.decorations.desk.ends host with
    | error fault => simp [hdocument, hends, Except.map] at hscene
    | ok ends =>
      obtain rfl : (⟨document, ends, m.scopes, caretStyle⟩ : Scene) = v := by
        simpa [hdocument, hends, Except.map] using hscene
      obtain ⟨m₁, hsnapshot, hhandles₁⟩ : ∃ m₁, onDesk (Desk.snapshot host) m =
          .ok (m.decorations.desk.document? host) m₁ ∧
            m₁.decorations.handles = m.decorations.handles :=
        ⟨_, onDesk_of_ok (Desk.snapshot_eq host m.decorations.desk), rfl⟩
      obtain ⟨-, hasked₁⟩ := asked_snapshot h.stands hsnapshot
      have h₁ := h.asked hasked₁
      have hmade : onDecorations (getOrCreate x.base x.mask.baseLook) m₁ =
          .ok (some (handle x.base)) m₁ :=
        onDecorations_of_ok (getOrCreate_of_handle h₁.stands.host
          (h₁.handles _ (List.mem_append_right _ (List.mem_singleton_self _))))
      obtain ⟨desk, hanswer⟩ := (Desk.selections_eq_ok_iff h₁.stands.there).mpr
        (hasked₁.obliged.desk.redrawn.ends_eq.trans hends)
      obtain ⟨m₂, hselections, hhandles₂⟩ : ∃ m₂, onDesk (Desk.selections host) m₁ = .ok ends m₂ ∧
          m₂.decorations.handles = m₁.decorations.handles := ⟨_, onDesk_of_ok hanswer, rfl⟩
      obtain ⟨-, hasked₂⟩ := asked_selections h₁.stands hselections
      have hasked := hasked₁.trans hasked₂
      obtain ⟨m', hdraw, hobliged, hhandles⟩ := (h₁.asked hasked₂).draw hdecided
      refine ⟨m', ?_, hasked.obliged.trans hobliged, hhandles.trans (hhandles₂.trans hhandles₁)⟩
      unfold Masking.apply
      rw [Step.bind_of_ok (Step.get_apply m)]
      simp only [heditor]
      rw [Step.bind_of_ok hsnapshot]
      simp only [hdocument]
      rw [Step.bind_of_ok hmade, Step.bind_of_ok hselections, Step.bind_of_ok (Step.get_apply m₂),
        hasked.scopes]
      exact hdraw

end settled

/-- An application has created decorations, given stretches and removed decorations. Done again, it
gives the same stretches to the same handles and does nothing else. -/
def Repeats (host : String) (x : Entry) (caretStyle : String) (m : Masking) (n : Nat)
    (m₁ : Masking) : Prop :=
  ∃ (created given : List Call) (gone : List Nat) (m₂ : Masking),
    (∀ c ∈ created, ∃ handle look, c = .create handle look) ∧ (∀ c ∈ given, c.isSet) ∧
    m₁.decorations.desk.calls =
      ((created ++ given ++ gone.flatMap removal).map (host, ·)).reverse ++
        m.decorations.desk.calls ∧
    apply x.pattern x.mask caretStyle m₁ = .ok n m₂ ∧
    m₂.decorations.desk.calls = (given.map (host, ·)).reverse ++ m₁.decorations.desk.calls ∧
    m₂.decorations.handles = m₁.decorations.handles

/-- An entry that was applied is applied once more: no layer is created, and the same stretches are
sent. -/
theorem repeats_apply {x : Entry} {caretStyle : String} {n : Nat} {m₁ : Masking}
    (h : m.decorations.Stands host) (hdocument : (m.decorations.desk.document? host).isSome)
    (hnames : m.decorations.desk.names host = true)
    (hok : apply x.pattern x.mask caretStyle m = .ok n m₁) : Repeats host x caretStyle m n m₁ := by
  have hworks := works_of_apply hok
  obtain ⟨v, used, created, given, gone, hscene, rfl, hran⟩ := ran_apply h hdocument hok
  obtain ⟨handle, hhandle, rfl⟩ := hran.given hnames
  have hsettled : Settled host m₁ x v handle := by
    refine ⟨hworks.stands h, hhandle, fun d hd => ?_, fun key hkey => ?_⟩
    · rw [hran.obliged.desk.grants_eq]
      refine hran.obliged.desk.granted _ (List.mem_append_left _ (List.mem_append_right _ ?_))
      exact List.mem_map.mpr ⟨d, hd, rfl⟩
    · rw [hran.passKeys, ← hran.uses]
      have hkept := ((hran.keys key).mp hkey).2
      generalize m.passKeys = noted at hkept
      cases noted with
      | none => exact Or.inr (by simpa using hkept)
      | some noted => exact Or.inl (by simpa using hkept)
  obtain ⟨m₂, hagain, hobliged, hhandles⟩ :=
    hsettled.apply ((hworks.scene?_eq caretStyle).trans hscene) hran.decided
  refine ⟨created, _, gone, m₂, hran.creates, fun c hc => ?_, hran.obliged.desk.calls, hagain,
    hobliged.desk.calls, hhandles⟩
  obtain ⟨d, _, rfl⟩ := List.mem_map.mp hc
  rfl

/-! ## What is left -/

section left

variable {m₀ m₁ : Masking} {xs : List (Entry × String)}

/-- An application outside of updates leaves the keys that it uses, also if there was contact with
the host before. -/
theorem keys_apply_alone (h : m.decorations.Stands host)
    (hdocument : (m.decorations.desk.document? host).isSome) (hworks : Works m m₀)
    (hnone : m₀.passKeys = none) {x : Entry} {caretStyle : String} {n : Nat}
    (hok : apply x.pattern x.mask caretStyle m₀ = .ok n m₁) :
    m₁.passKeys = none ∧ ∀ key, key ∈ m₁.decorations.keys ↔ m.Uses x caretStyle key := by
  obtain ⟨used, huses, hpass, hkeys⟩ :=
    keys_apply (hworks.stands h) ((hworks.document?_eq host).symm ▸ hdocument) hok
  rw [hnone] at hpass hkeys
  refine ⟨hpass, fun key => ?_⟩
  rw [hkeys, ← hworks.uses_iff, ← huses, Option.getD_none, List.nil_append]
  exact and_iff_right_of_imp Or.inr

/-- An update that begins has noted what its entries have used so far, and that is there. -/
theorem keys_begun (h : m.decorations.Stands host)
    (hdocument : (m.decorations.desk.document? host).isSome)
    (hok : applyEach xs { m with passKeys := some [] } = .ok () m₁) :
    ∃ used, (∀ key, key ∈ used ↔ ∃ a ∈ xs, m.Uses a.1 a.2 key) ∧ m₁.passKeys = some used ∧
      (xs ≠ [] → ∀ key, key ∈ m₁.decorations.keys ↔ key ∈ used) := by
  have hbegin := works_passKeys m (some [])
  obtain ⟨used, huses, hpass, hkeys⟩ := keys_applyEach (hbegin.stands h) hdocument rfl hok
  refine ⟨used, fun key => ?_, hpass, fun hne key => ?_⟩
  · simp only [huses, hbegin.uses_iff]
  · simpa using hkeys hne key

/-- An update that is over has left what its entries have used. -/
theorem keys_update_applyEach (h : m.decorations.Stands host)
    (hdocument : (m.decorations.desk.document? host).isSome)
    (hok : update (applyEach xs) m = .ok () m₁) :
    m₁.passKeys = m.passKeys ∧
      ∀ key, key ∈ m₁.decorations.keys ↔ ∃ a ∈ xs, m.Uses a.1 a.2 key := by
  cases hbody : applyEach xs { m with passKeys := some [] } with
  | error fault m₂ =>
    rw [update_of_error hbody] at hok
    cases hok
  | ok _ m₂ =>
    have hworks : Works m m₂ := by
      have hall := (works_passKeys m (some [])).trans (works_applyEach xs _)
      rwa [Step.after_of_ok hbody] at hall
    obtain ⟨used, huses, hpass₂, hkeys₂⟩ := keys_begun h hdocument hbody
    obtain ⟨hpass₁, hkeys₁⟩ := keys_update hbody (hworks.stands h) hok
    refine ⟨hpass₁, fun key => ?_⟩
    rw [hkeys₁, hpass₂, Option.getD_some, ← huses]
    refine and_iff_right_of_imp fun hkey => ?_
    -- with no application there is nothing to have been used
    have hne : xs ≠ [] := by
      rintro rfl
      simpa using (huses key).mp hkey
    exact (hkeys₂ hne key).mpr hkey

/-- A body that has failed was in contact with the host, and no more. -/
theorem works_of_failed {α : Type} {body : Step Masking α} {fault : Fault}
    (hobeys : Step.Obeys Works body)
    (hfailed : body { m with passKeys := some [] } = .error fault m₁) :
    Works m { m₁ with passKeys := none } := by
  have hbody := hobeys { m with passKeys := some [] }
  rw [Step.after_of_error hfailed] at hbody
  exact ((works_passKeys m (some [])).trans hbody).trans (works_passKeys m₁ none)

end left

/-- Outside of any update, on a host with a document. An application that returns leaves exactly the
keys that it uses. While an update of applications runs, exactly the keys are there that those so
far have used, and so in the end, which then sends no call. A body that fails ends the update with
no call, and the next application leaves its own keys only. An application that is done again, alone
or in an update, gives the same stretches as before to the same handles and does nothing else. -/
theorem keys_left (h : m.decorations.Stands host)
    (hdocument : (m.decorations.desk.document? host).isSome) (hpass : m.passKeys = none) :
    (∀ (x : Entry) caretStyle n m₁, apply x.pattern x.mask caretStyle m = .ok n m₁ →
      m₁.passKeys = none ∧ ∀ key, key ∈ m₁.decorations.keys ↔ m.Uses x caretStyle key) ∧
    (∀ xs m₁, xs ≠ [] → applyEach xs { m with passKeys := some [] } = .ok () m₁ →
      (∀ key, key ∈ m₁.decorations.keys ↔ ∃ a ∈ xs, m.Uses a.1 a.2 key) ∧
        update (applyEach xs) m = .ok () { m₁ with passKeys := none }) ∧
    (∀ xs m₁, update (applyEach xs) m = .ok () m₁ →
      m₁.passKeys = none ∧ ∀ key, key ∈ m₁.decorations.keys ↔ ∃ a ∈ xs, m.Uses a.1 a.2 key) ∧
    (∀ (α : Type) (body : Step Masking α) fault m₁,
      body { m with passKeys := some [] } = .error fault m₁ →
      update body m = .error fault { m₁ with passKeys := none } ∧
        (Step.Obeys Works body → ∀ (x : Entry) caretStyle n m₂,
          apply x.pattern x.mask caretStyle { m₁ with passKeys := none } = .ok n m₂ →
          ∀ key, key ∈ m₂.decorations.keys ↔ m.Uses x caretStyle key)) ∧
    (m.decorations.desk.names host = true → ∀ keys (x : Entry) caretStyle n m₁,
      apply x.pattern x.mask caretStyle { m with passKeys := keys } = .ok n m₁ →
      Repeats host x caretStyle m n m₁) := by
  refine ⟨fun x caretStyle n m₁ hok => keys_apply_alone h hdocument (Works.refl m) hpass hok,
    fun xs m₁ hne hok => ?_, fun xs m₁ hok => ?_,
    fun α body fault m₁ hfailed => ⟨?_, fun hobeys x caretStyle n m₂ hok => ?_⟩,
    fun hnames keys x caretStyle n m₁ hok => ?_⟩
  · obtain ⟨used, huses, hpass₁, hkeys⟩ := keys_begun h hdocument hok
    refine ⟨fun key => (hkeys hne key).trans (huses key), ?_⟩
    rw [← hpass]
    -- nothing is left for the end of the pass to evict
    refine update_of_subset hok fun key hkey => ?_
    rw [hpass₁]
    exact (hkeys hne key).mp hkey
  · rw [← hpass]
    exact keys_update_applyEach h hdocument hok
  · rw [← hpass]
    exact update_of_error hfailed
  · exact (keys_apply_alone h hdocument (works_of_failed hobeys hfailed) rfl hok).2
  · exact repeats_apply (m := { m with passKeys := keys }) h hdocument hnames hok

/-- An entry with a text of its own for one of the letters. -/
def eitherEntry : Entry := (Entry.read? either).get (by decide +kernel)

/-- Two letters with and without replacements of their own: the second time only stretches are sent.
-/
theorem either_left : ∃ (m₁ m₂ : Masking) (given : List Call),
    apply eitherEntry.pattern eitherEntry.mask "line" masked = .ok 2 m₁ ∧
    (∀ key, key ∈ m₁.decorations.keys ↔ masked.Uses eitherEntry "line" key) ∧
    apply eitherEntry.pattern eitherEntry.mask "line" m₁ = .ok 2 m₂ ∧ (∀ c ∈ given, c.isSet) ∧
    m₂.decorations.desk.calls = (given.map ("e", ·)).reverse ++ m₁.decorations.desk.calls := by
  have houtcome :
      Step.outcome (apply eitherEntry.pattern eitherEntry.mask "line") masked = .ok 2 := by
    decide +kernel
  have hok := Step.eq_of_outcome houtcome
  have hstands : masked.decorations.Stands "e" := ⟨by decide +kernel, by decide +kernel⟩
  obtain ⟨hkeys, -, -, -, hagain⟩ := keys_left hstands (by decide +kernel) rfl
  obtain ⟨-, given, -, m₂, -, hsets, -, hrepeat, hcalls, -⟩ :=
    hagain (by decide +kernel) none eitherEntry "line" 2 _ hok
  exact ⟨_, m₂, given, hok, (hkeys eitherEntry "line" 2 _ hok).2, hrepeat, hsets, hcalls⟩

end Masking

end Conceal
