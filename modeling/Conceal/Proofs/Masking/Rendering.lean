import Conceal.Proofs.Decoration.Sending
import Conceal.Proofs.Decoration.Tidy
import Conceal.Proofs.Masking.Apply
import Conceal.Proofs.Masking.Choice

/-!
The calls that applying an entry sends. First come the creations, then the stretches of every text
with a replacement of its own that is masked somewhere, in the order in which the texts come up,
then those of the pattern's own decoration, and at last the removal of keys that are not used.
Main statement: `apply_sends`.
-/

namespace Conceal

/-! ## First occurrences -/

private theorem eraseDups_eq_self {α : Type} [BEq α] [LawfulBEq α] {xs : List α} (h : xs.Nodup) :
    xs.eraseDups = xs := by
  induction xs with
  | nil => rfl
  | cons a rest ih =>
    rw [List.nodup_cons] at h
    have hrest : rest.filter (fun b => !b == a) = rest := by
      rw [List.filter_eq_self]
      intro b hb
      have hne : b ≠ a := fun heq => h.1 (heq ▸ hb)
      simpa using hne
    rw [List.eraseDups_cons, hrest, ih h.2]

/-- What came before is not counted again. -/
private theorem eraseDups_append_cons {α : Type} [BEq α] [LawfulBEq α] {xs : List α} {a : α}
    (h : a ∈ xs) (rest : List α) : (xs ++ a :: rest).eraseDups = (xs ++ rest).eraseDups := by
  have hcontains : xs.contains a = true := List.contains_iff_mem.mpr h
  rw [List.eraseDups_append, List.eraseDups_append, List.cons_removeAll, hcontains]
  rfl

/-- Distinct values stay distinct, so that duplicates can be taken away before or after. -/
private theorem eraseDups_map {α β : Type} [BEq α] [LawfulBEq α] [BEq β] [LawfulBEq β] {f : α → β}
    (hf : Function.Injective f) (xs : List α) : (xs.map f).eraseDups = xs.eraseDups.map f := by
  match xs with
  | [] => rfl
  | a :: rest =>
    have hshorter := List.length_filter_le (fun b => !b == a) rest
    have hfilter : (rest.map f).filter (fun b => !b == f a) =
        (rest.filter fun b => !b == a).map f := by
      rw [List.filter_map]
      congr 1
      refine List.filter_congr fun b _ => ?_
      rw [Function.comp_apply, Bool.eq_iff_iff]
      simp [hf.eq_iff]
    rw [List.map_cons, List.eraseDups_cons, List.eraseDups_cons, hfilter,
      eraseDups_map hf (rest.filter fun b => !b == a), List.map_cons]
termination_by xs.length
decreasing_by simp; omega

/-! ## What is rendered -/

namespace Entry

open Masking

/-- The stretches that keys are given for some matches, in the order of the calls: those of every
text with a replacement of its own, as the texts come up, and then those of the pattern's key. -/
def plan (x : Entry) (v : Scene) (masked : List Regex.Found) : List (String × List Stretch) :=
  let texts := (masked.filter fun m => (x.own? v m).isSome).map v.textOf
  texts.eraseDups.map (fun text =>
    (Mask.derivedKey x.base text, (masked.filter fun m => v.textOf m = text).map fun m =>
      ⟨m.start, m.stop, (x.mask.override? text).bind Override.hover⟩)) ++
  [(x.base, (masked.filter fun m => x.own? v m = none).map fun m =>
    ⟨m.start, m.stop, x.mask.hover⟩)]

end Entry

namespace Masking

variable {base : String}

/-- The keys come in the order in which they come up first. -/
theorem keys_collect (base : String) (ps : List Placement) {found : List (String × List Stretch)}
    (h : (found.map (·.1)).Nodup) : (collect base ps found).map (·.1) =
      (found.map (·.1) ++ ps.map (keyOf base)).eraseDups := by
  induction ps generalizing found with
  | nil =>
    rw [List.map_nil, List.append_nil, eraseDups_eq_self h]
    rfl
  | cons p rest ih =>
    have hrest := ih (nodup_addStretch h (keyOf base p) p.stretch)
    refine hrest.trans ?_
    rw [keys_addStretch, List.map_cons]
    split
    next hmem => rw [eraseDups_append_cons hmem]
    · rw [List.append_assoc, List.singleton_append]

/-- Every placement adds one stretch. -/
theorem length_collect (ps : List Placement) (found : List (String × List Stretch)) :
    ((collect base ps found).flatMap (·.2)).length = (found.flatMap (·.2)).length + ps.length := by
  have hadd : ∀ (found : List (String × List Stretch)) (key : String) (s : Stretch),
      ((addStretch found key s).flatMap (·.2)).length = (found.flatMap (·.2)).length + 1 := by
    intro found key s
    induction found with
    | nil => simp [addStretch]
    | cons d rest ih =>
      obtain ⟨k, ss⟩ := d
      rw [addStretch]
      split
      · simp only [List.flatMap_cons, List.length_append, List.length_cons, List.length_nil]
        omega
      · simp only [List.flatMap_cons, List.length_append, ih]
        omega
  induction ps generalizing found with
  | nil => rfl
  | cons p rest ih =>
    refine (ih _).trans ?_
    rw [hadd, List.length_cons]
    omega

/-- The keys come in the order of their first stretches, after that of the pattern. -/
theorem collect_eq (ps : List Placement) : collect base ps [(base, [])] =
    (base, stretchesOf base ps base) ::
      ((ps.map (keyOf base)).filter fun key => !key == base).eraseDups.map fun key =>
        (key, stretchesOf base ps key) := by
  have hnodup : ((collect base ps [(base, [])]).map (·.1)).Nodup := nodup_collect (by simp)
  have hkeys : (collect base ps [(base, [])]).map (·.1) = _ := keys_collect base ps (by simp)
  rw [List.map_singleton, List.singleton_append, List.eraseDups_cons] at hkeys
  -- what is collected is told by its keys and what a lookup gives for them
  have hlist : collect base ps [(base, [])] =
      ((collect base ps [(base, [])]).map (·.1)).map fun key => (key, stretchesOf base ps key) := by
    rw [List.map_map]
    refine (List.map_id _).symm.trans (List.map_congr_left fun d hd => ?_)
    have hlookup := lookup_collect base ps [(base, [])] d.1
    have hempty : (List.lookup d.1 [(base, ([] : List Stretch))]).getD [] = [] := by
      rw [List.lookup_cons]
      split <;> rfl
    rw [lookup_of_mem hnodup hd, hempty, Option.getD_some, List.nil_append] at hlookup
    exact Prod.ext rfl hlookup
  rw [hkeys, List.map_cons] at hlist
  exact hlist

variable {x : Entry} {v : Scene}

/-- A match with a replacement of its own has a key of its own. -/
theorem keyOf_placementOf (m : Regex.Found) : keyOf x.base (placementOf (x.sight v) m) =
    if (x.own? v m).isSome then Mask.derivedKey x.base (v.textOf m) else x.base := by
  have hown : (placementOf (x.sight v) m).own = (x.own? v m).map fun o => (v.textOf m, o) := rfl
  rw [keyOf, hown]
  cases x.own? v m <;> rfl

/-- The texts with a replacement of their own give the keys other than the pattern's. -/
theorem ownKeys_placementOf (masked : List Regex.Found) :
    ((masked.map (placementOf (x.sight v))).map (keyOf x.base)).filter (fun key => !key == x.base) =
      ((masked.filter fun m => (x.own? v m).isSome).map v.textOf).map (Mask.derivedKey x.base) := by
  induction masked with
  | nil => rfl
  | cons m rest ih =>
    rw [List.map_cons, List.map_cons, List.filter_cons, List.filter_cons, keyOf_placementOf]
    by_cases hown : (x.own? v m).isSome = true
    · have hne : (!Mask.derivedKey x.base (v.textOf m) == x.base) = true := by
        simpa using derivedKey_ne x.base (v.textOf m)
      rw [if_pos hown, if_pos hne, if_pos hown, List.map_cons, List.map_cons, ih]
    · rw [if_neg hown, if_neg (by simp), if_neg hown, ih]

/-- The stretches of a key are those of the matches that have it. -/
theorem stretchesOf_placementOf (masked : List Regex.Found) (key : String) :
    stretchesOf x.base (masked.map (placementOf (x.sight v))) key =
      (masked.filter fun m => keyOf x.base (placementOf (x.sight v) m) = key).map fun m =>
        (placementOf (x.sight v) m).stretch := by
  rw [stretchesOf, List.filter_map, List.map_map]
  rfl

/-- The stretches of a text with a replacement of its own. -/
theorem stretchesOf_derivedKey (masked : List Regex.Found) {text : String} {o : Override}
    (ho : x.mask.override? text = some o) :
    stretchesOf x.base (masked.map (placementOf (x.sight v))) (Mask.derivedKey x.base text) =
      (masked.filter fun m => v.textOf m = text).map fun m => ⟨m.start, m.stop, o.hover⟩ := by
  have hiff : ∀ m, keyOf x.base (placementOf (x.sight v) m) = Mask.derivedKey x.base text ↔
      v.textOf m = text := by
    intro m
    rw [keyOf_placementOf]
    constructor
    · split
      · exact fun h => derivedKey_inj h
      · exact fun h => absurd h.symm (derivedKey_ne _ _)
    · intro heq
      rw [Entry.own?, heq, ho]
      rfl
  rw [stretchesOf_placementOf]
  simp only [hiff]
  refine List.map_congr_left fun m hm => ?_
  have htext : v.textOf m = text := by simpa using (List.mem_filter.mp hm).2
  have hown : (x.sight v).mask.override? (Regex.slice (x.sight v).text m.start m.stop)
      = some o := by
    rw [← ho, ← htext]
    rfl
  simp only [placementOf, hown]

/-- The stretches of the pattern's own decoration. -/
theorem stretchesOf_base (masked : List Regex.Found) :
    stretchesOf x.base (masked.map (placementOf (x.sight v))) x.base =
      (masked.filter fun m => x.own? v m = none).map fun m => ⟨m.start, m.stop, x.mask.hover⟩ := by
  have hiff : ∀ m, keyOf x.base (placementOf (x.sight v) m) = x.base ↔ x.own? v m = none := by
    intro m
    rw [keyOf_placementOf]
    cases x.own? v m with
    | none => simp
    | some o => simpa using derivedKey_ne x.base (v.textOf m)
  rw [stretchesOf_placementOf]
  simp only [hiff]
  refine List.map_congr_left fun m hm => ?_
  have hown : x.own? v m = none := by simpa using (List.mem_filter.mp hm).2
  have hown : (x.sight v).mask.override? (Regex.slice (x.sight v).text m.start m.stop) = none :=
    hown
  simp only [placementOf, hown]

/-- What is collected of masked matches is what is planned for them. -/
theorem collect_placementOf (masked : List Regex.Found) :
    (collect x.base (masked.map (placementOf (x.sight v))) [(x.base, [])]).drop 1 ++
      (collect x.base (masked.map (placementOf (x.sight v))) [(x.base, [])]).take 1 =
    x.plan v masked := by
  have hinjective : Function.Injective (Mask.derivedKey x.base) := fun _ _ => derivedKey_inj
  rw [collect_eq, List.drop_one, List.tail_cons, List.take_one, List.head?_cons,
    Option.toList_some, ownKeys_placementOf, eraseDups_map hinjective, List.map_map, Entry.plan,
    stretchesOf_base]
  congr 1
  refine List.map_congr_left fun text htext => ?_
  -- a text that is listed has a replacement of its own
  rw [List.mem_eraseDups, List.mem_map] at htext
  obtain ⟨m, hm, rfl⟩ := htext
  have hown : (x.mask.override? (v.textOf m)).isSome = true := (List.mem_filter.mp hm).2
  obtain ⟨o, ho⟩ := Option.isSome_iff_exists.mp hown
  rw [Function.comp_apply, stretchesOf_derivedKey masked ho, ho]
  rfl

/-! ## What is sent -/

open Decorations

variable {m : Masking} {host : String}

theorem creates_of_getOrCreate {p : Prop} [Decidable p] {created : List Call} {handle : Option Nat}
    {look : Look} (h : created = if p then [] else [.create handle look]) :
    ∀ c ∈ created, ∃ handle look, c = .create handle look := by
  intro c hc
  rw [h] at hc
  split at hc
  · cases hc
  · exact ⟨handle, look, List.mem_singleton.mp hc⟩

/-- A masked match has a handle for its key afterwards, and no other key has another than before. -/
theorem carryOut_place_sends {base : String} {p : Placement} (rest : List Decision)
    {found : List (String × List Stretch)} (h : m.decorations.Serves host)
    (hbase : base ∈ found.map (·.1))
    (hthere : ∀ key ∈ found.map (·.1), (m.decorations.handle? key).isSome) :
    ∃ (created : List Call) (m' : Masking),
      carryOut base (.place p :: rest) found m =
        carryOut base rest (addStretch found (keyOf base p) p.stretch) m' ∧
      Sends host m.decorations created m'.decorations ∧
      (∀ c ∈ created, ∃ handle look, c = .create handle look) ∧
      (m'.decorations.handle? (keyOf base p)).isSome ∧
      ∀ key ≠ keyOf base p, m'.decorations.handle? key = m.decorations.handle? key := by
  simp only [carryOut]
  by_cases hmem : keyOf base p ∈ found.map (·.1)
  · refine ⟨[], m, ?_, Sends.refl h, by simp, hthere _ hmem, fun _ _ => rfl⟩
    rw [List.contains_iff_mem.mpr hmem]
    rfl
  · have hnot : (found.map (·.1)).contains (keyOf base p) = false := by
      rw [← Bool.not_eq_true, List.contains_iff_mem]
      exact hmem
    -- a key that is new belongs to an override, since the base is there already
    cases hown : p.own with
    | none => exact absurd (keyOf_of_own_eq_none hown ▸ hbase) hmem
    | some own =>
      obtain ⟨handle, created, d', hmade, hsends, hcreated, hhandle, hother⟩ :=
        h.getOrCreate (keyOf base p) (Mask.overrideLook own.2)
      refine ⟨created, { m with decorations := d' }, ?_, hsends, ?_, by simp [hhandle], hother⟩
      · rw [hnot]
        exact Step.bind_of_ok (onDecorations_of_ok hmade)
      · exact creates_of_getOrCreate hcreated

/-- Only decorations are created; every key that comes up has a handle in the end. -/
theorem carryOut_sends (base : String) (ds : List Decision) (found : List (String × List Stretch))
    (h : m.decorations.Serves host) (hbase : base ∈ found.map (·.1))
    (hthere : ∀ key ∈ found.map (·.1), (m.decorations.handle? key).isSome) :
    ∃ (created : List Call) (m' : Masking),
      (carryOut base ds found m = match failure? ds with
        | none => .ok (collect base (placements ds) found) m'
        | some fault => .error fault m') ∧
      Sends host m.decorations created m'.decorations ∧
      (∀ c ∈ created, ∃ handle look, c = .create handle look) ∧
      (∀ key ∈ (collect base (placements ds) found).map (·.1),
        (m'.decorations.handle? key).isSome) ∧
      ∀ key ∉ (collect base (placements ds) found).map (·.1),
        m'.decorations.handle? key = m.decorations.handle? key := by
  -- a match may bring a handle, so the state and what is found so far vary from one to the next
  induction ds generalizing m found with
  | nil => exact ⟨[], m, rfl, Sends.refl h, by simp, hthere, fun _ _ => rfl⟩
  | cons d rest ih =>
    cases d with
    | notice n => exact ih found (m := { m with notices := m.notices ++ [n] }) h hbase hthere
    | fail fault => exact ⟨[], m, rfl, Sends.refl h, by simp, hthere, fun _ _ => rfl⟩
    | place p =>
      obtain ⟨created₁, m₁, hstep, hsends₁, hcreated₁, hhandle, hother₁⟩ :=
        carryOut_place_sends (p := p) rest h hbase hthere
      have hbase₁ : base ∈ (addStretch found (keyOf base p) p.stretch).map (·.1) :=
        mem_keys_addStretch.mpr (Or.inr hbase)
      have hthere₁ : ∀ key ∈ (addStretch found (keyOf base p) p.stretch).map (·.1),
          (m₁.decorations.handle? key).isSome := by
        intro key hkey
        by_cases heq : key = keyOf base p
        · rw [heq]
          exact hhandle
        · rw [hother₁ key heq]
          exact hthere key ((mem_keys_addStretch.mp hkey).resolve_left heq)
      obtain ⟨created₂, m₂, hrest, hsends₂, hcreated₂, hthere₂, hother₂⟩ :=
        ih _ hsends₁.serves hbase₁ hthere₁
      refine ⟨created₁ ++ created₂, m₂, hstep.trans hrest, hsends₁.trans hsends₂,
        List.forall_mem_append.mpr ⟨hcreated₁, hcreated₂⟩, hthere₂, fun key hkey => ?_⟩
      have hne : key ≠ keyOf base p := by
        rintro rfl
        exact hkey (mem_keys_collect.mpr (Or.inr (by simp [placements])))
      exact (hother₂ key hkey).trans (hother₁ key hne)

/-- Each key is given its stretches by one call. -/
theorem renderEach_sends (found : List (String × List Stretch)) (h : m.decorations.Serves host)
    {handle : String → Nat}
    (hhandle : ∀ d ∈ found, m.decorations.handle? d.1 = some (handle d.1)) :
    ∃ m', renderEach found m = .ok () m' ∧
      Sends host m.decorations (found.map fun d => .set (handle d.1) d.2) m'.decorations ∧
      m'.decorations.handles = m.decorations.handles := by
  induction found generalizing m with
  | nil => exact ⟨m, rfl, Sends.refl h, rfl⟩
  | cons d rest ih =>
    obtain ⟨d₁, hrender, hsends₁, hhandles₁⟩ := h.render (hhandle d List.mem_cons_self) d.2
    have hrest : ∀ e ∈ rest, d₁.handle? e.1 = some (handle e.1) := fun e he =>
      (handle?_of_handles hhandles₁ e.1).trans (hhandle e (List.mem_cons_of_mem d he))
    obtain ⟨m₂, hrests, hsends₂, hhandles₂⟩ :=
      ih (m := { m with decorations := d₁ }) hsends₁.serves hrest
    exact ⟨m₂, (Step.bind_of_ok (onDecorations_of_ok hrender)).trans hrests,
      hsends₁.trans hsends₂, hhandles₂.trans hhandles₁⟩

/-- The keys of a plan are those that stretches are collected for. -/
theorem keys_plan {x : Entry} {v : Scene} (masked : List Regex.Found) (key : String) :
    key ∈ (x.plan v masked).map (·.1) ↔
      key ∈ (collect x.base (masked.map (placementOf (x.sight v))) [(x.base, [])]).map (·.1) := by
  rw [← collect_placementOf, List.map_append, List.mem_append, or_comm, ← List.mem_append,
    ← List.map_append, List.take_append_drop]

/-- The keys that are used are noted, and no key but those and the ones noted before stays. -/
theorem removeUnused_sends (h : m.decorations.Serves host) (used : List String) (count : Nat) :
    ∃ (gone : List Nat) (m' : Masking),
      (do
        let keep ← noteKeys used
        let _ ← onDecorations (evictAllExcept keep)
        return count : Step Masking Nat) m = .ok count m' ∧
      Sends host m.decorations (gone.flatMap removal) m'.decorations ∧
      (∀ old ∈ gone, ∃ key ∉ used, m.decorations.handle? key = some old) ∧
      ∀ key ∈ used, m'.decorations.handle? key = m.decorations.handle? key := by
  obtain ⟨evicted, gone, d', hevicted, hsends, hgone, hkept⟩ :=
    h.evictAllExcept (m.passKeys.getD [] ++ used)
  let noted : Masking := { m with passKeys := m.passKeys.map (· ++ used) }
  have hremoved : onDecorations (evictAllExcept (m.passKeys.getD [] ++ used)) noted =
      .ok evicted { noted with decorations := d' } := onDecorations_of_ok hevicted
  refine ⟨gone, { noted with decorations := d' }, ?_, hsends, fun old hold => ?_,
    fun key hkey => hkept key (List.mem_append_right _ hkey)⟩
  · rw [Step.bind_of_ok (noteKeys_apply rfl used), Step.bind_of_ok hremoved]
    rfl
  · obtain ⟨key, hkey, hwas⟩ := hgone old hold
    exact ⟨key, fun hused => hkey (List.mem_append_right _ hused), hwas⟩

/-- Drawing without a failure gives what is planned, and then removes what is not used. -/
theorem draw_sends {x : Entry} {v : Scene} (h : m.decorations.Serves host)
    (hbase : (m.decorations.handle? x.base).isSome) (hok : failure? (x.decided v) = none) :
    ∃ (created : List Call) (handle : String → Nat) (gone : List Nat) (m' : Masking),
      draw x.base (x.decided v) m = .ok (x.masked v).length m' ∧
      (∀ c ∈ created, ∃ handle look, c = .create handle look) ∧
      (∀ d ∈ x.plan v (x.masked v), m'.decorations.handle? d.1 = some (handle d.1)) ∧
      (∀ old ∈ gone, ∃ key ∉ (x.plan v (x.masked v)).map (·.1),
        m.decorations.handle? key = some old) ∧
      Sends host m.decorations (created ++
        (x.plan v (x.masked v)).map (fun d => Call.set (handle d.1) d.2) ++
        gone.flatMap removal) m'.decorations := by
  obtain ⟨created, m₁, hcarried, hsends₁, hcreated, hthere, hother⟩ :=
    carryOut_sends x.base (x.decided v) [(x.base, [])] h (by simp) (by simpa using hbase)
  rw [hok] at hcarried
  rw [(Entry.placements_of_failure? x hok).2] at hcarried hthere hother
  have hplan := collect_placementOf (x := x) (v := v) (x.masked v)
  have hkeys := keys_plan (x := x) (v := v) (x.masked v)
  have hlength : ((collect x.base ((x.masked v).map (placementOf (x.sight v)))
      [(x.base, [])]).flatMap (·.2)).length = (x.masked v).length := by
    rw [length_collect, List.length_map]
    exact Nat.zero_add _
  generalize x.plan v (x.masked v) = plan at *
  generalize collect x.base ((x.masked v).map (placementOf (x.sight v))) [(x.base, [])] = found at *
  -- every key of the plan has a handle by now
  let handle (key : String) : Nat := (m₁.decorations.handle? key).getD 0
  have hhandle : ∀ d ∈ plan, m₁.decorations.handle? d.1 = some (handle d.1) := by
    intro d hd
    obtain ⟨known, hknown⟩ :=
      Option.isSome_iff_exists.mp (hthere d.1 ((hkeys d.1).mp (List.mem_map_of_mem hd)))
    simp only [handle, hknown, Option.getD_some]
  obtain ⟨m₂, hrendered, hsends₂, hhandles₂⟩ := renderEach_sends plan hsends₁.serves hhandle
  obtain ⟨gone, m₃, hremoved, hsends₃, hgone, hkept⟩ :=
    removeUnused_sends hsends₂.serves (found.map (·.1)) (x.masked v).length
  refine ⟨created, handle, gone, m₃, ?_, hcreated, fun d hd => ?_, fun old hold => ?_,
    (hsends₁.trans hsends₂).trans hsends₃⟩
  · unfold draw
    rw [Step.bind_of_ok hcarried, hplan, Step.bind_of_ok hrendered, hlength]
    exact hremoved
  · rw [hkept d.1 ((hkeys d.1).mp (List.mem_map_of_mem hd)), handle?_of_handles hhandles₂]
    exact hhandle d hd
  · obtain ⟨key, hnot, hwas⟩ := hgone old hold
    refine ⟨key, mt (hkeys key).mp hnot, ?_⟩
    rw [← hother key hnot, ← handle?_of_handles hhandles₂, hwas]

/-- Asking the host changes nothing that matters. -/
theorem snapshot_sends (h : m.decorations.Serves host) :
    ∃ m', onDesk (Desk.snapshot host) m = .ok (m.decorations.desk.document? host) m' ∧
      Sends host m.decorations [] m'.decorations ∧ m'.scopes = m.scopes ∧
      m'.decorations.handles = m.decorations.handles := by
  obtain ⟨made, layers, hholds⟩ := h.holds
  obtain ⟨desk, hsnapshot, hredrawn, hholds'⟩ := hholds.snapshot
  exact ⟨_, onDesk_of_ok hsnapshot, h.sends hholds' hredrawn, rfl, rfl⟩

/-- Asking for selections sends nothing. -/
theorem selections_sends (h : m.decorations.Serves host) {ends : List (Int × Int)}
    (hends : m.decorations.desk.ends host = .ok ends) :
    ∃ m', onDesk (Desk.selections host) m = .ok ends m' ∧
      Sends host m.decorations [] m'.decorations ∧ m'.scopes = m.scopes ∧
      m'.decorations.handles = m.decorations.handles := by
  obtain ⟨made, layers, hholds⟩ := h.holds
  obtain ⟨desk, hselections, hredrawn, hholds'⟩ := hholds.selections
  rw [hends] at hselections
  exact ⟨_, onDesk_of_ok hselections, h.sends hholds' hredrawn, rfl, rfl⟩

/-- Drawing that fails has only created decorations. -/
theorem draw_sends_of_failure {x : Entry} {v : Scene} (h : m.decorations.Serves host)
    (hbase : (m.decorations.handle? x.base).isSome) {fault : Fault}
    (hfailure : failure? (x.decided v) = some fault) :
    ∃ (created : List Call) (m' : Masking), draw x.base (x.decided v) m = .error fault m' ∧
      (∀ c ∈ created, ∃ handle look, c = .create handle look) ∧
      Sends host m.decorations created m'.decorations := by
  obtain ⟨created, m₁, hcarried, hsends, hcreated, _⟩ :=
    carryOut_sends x.base (x.decided v) [(x.base, [])] h (by simp) (by simpa using hbase)
  rw [hfailure] at hcarried
  exact ⟨created, m₁, Step.bind_of_error hcarried, hcreated, hsends⟩

/-- What comes before the drawing: the pattern has its handle, and all else is as it was. -/
theorem apply_eq_draw (x : Entry) (caretStyle : String) (h : m.decorations.Serves host)
    {document : Document} (hdocument : m.decorations.desk.document? host = some document)
    {ends : List (Int × Int)} (hends : m.decorations.desk.ends host = .ok ends) :
    ∃ (created : List Call) (m' : Masking),
      apply x.pattern x.mask caretStyle m =
        draw x.base (x.decided ⟨document, ends, m.scopes, caretStyle⟩) m' ∧
      (∀ c ∈ created, ∃ handle look, c = .create handle look) ∧
      Sends host m.decorations created m'.decorations ∧
      (m'.decorations.handle? x.base).isSome ∧
      ∀ key ≠ x.base, m'.decorations.handle? key = m.decorations.handle? key := by
  -- three calls go before the drawing, and each leaves what the next one reads
  have heditor : m.editor? = some host := h.host
  obtain ⟨m₁, hsnapshot, hsends₁, hscopes₁, hhandles₁⟩ := snapshot_sends h
  obtain ⟨handle, created, d₂, hmade, hsends₂, hcreated, hhandle, hother⟩ :=
    hsends₁.serves.getOrCreate x.base x.mask.baseLook
  let m₂ : Masking := { m₁ with decorations := d₂ }
  have hends₂ : m₂.decorations.desk.ends host = .ok ends := by
    rw [(hsends₁.trans hsends₂).redrawn.ends_eq]
    exact hends
  obtain ⟨m₃, hselections, hsends₃, hscopes₃, hhandles₃⟩ := selections_sends hsends₂.serves hends₂
  have hsame : ∀ key, m₃.decorations.handle? key = d₂.handle? key := handle?_of_handles hhandles₃
  refine ⟨created, m₃, ?_, creates_of_getOrCreate hcreated, ?_, ?_, ?_⟩
  · unfold apply
    rw [Step.bind_of_ok (Step.get_apply m)]
    simp only [heditor]
    rw [Step.bind_of_ok hsnapshot]
    simp only [hdocument]
    rw [Step.bind_of_ok (onDecorations_of_ok hmade), Step.bind_of_ok hselections,
      Step.bind_of_ok (Step.get_apply m₃), hscopes₃, hscopes₁]
    rfl
  · simpa using (hsends₁.trans hsends₂).trans hsends₃
  · rw [hsame, hhandle]
    rfl
  · intro key hkey
    rw [hsame, hother key hkey, handle?_of_handles hhandles₁]

/-- A match can only fail where the tokenizer fails with the line of the match, and not for a reason
of its grammar. -/
theorem tokenizer_of_failsAt {x : Entry} {v : Scene} {i : Regex.Found} {fault : Fault}
    (hlines : ∀ t, v.scopes.tokenizer = some t →
      ∃ d, v.scopes.document = some d ∧ d.lines = v.document.lines)
    (h : x.FailsAt v i fault) :
    ∃ t line, v.scopes.tokenizer = some t ∧
      v.document.lines[v.document.lineAt i.start]? = some line ∧
      t.tokenize line (v.scopes.endState? (v.document.lineAt i.start - 1)) = .error fault ∧
      fault.isGrammar = false := by
  have hasked := h.2.2
  unfold LineScopes.tokens? at hasked
  cases htokenizer : v.scopes.tokenizer with
  | none =>
    rw [htokenizer] at hasked
    cases hasked
  | some t =>
    obtain ⟨d, hd, heq⟩ := hlines t htokenizer
    have hlt : v.document.lineAt i.start < v.document.lines.length := by
      rw [Document.length_lines]
      exact v.document.lineAt_lt i.start
    obtain ⟨line, hline⟩ : ∃ line, v.document.lines[v.document.lineAt i.start]? = some line :=
      ⟨_, List.getElem?_eq_getElem hlt⟩
    -- the lines of the scopes are those of the document
    have htext : d.line? (v.document.lineAt i.start) = some line := by
      rw [← Document.getElem?_lines, heq, hline]
    refine ⟨t, line, rfl, hline, ?_⟩
    simp only [htokenizer, hd, htext, pure_bind] at hasked
    generalize t.tokenize _ _ = tokenized at hasked ⊢
    cases tokenized with
    | ok r => cases hasked
    | error e =>
      simp only at hasked
      split at hasked
      · cases hasked
      next hgrammar =>
        cases hasked
        exact ⟨rfl, by simpa using hgrammar⟩

/-- Applying an entry to a text. The matches are those that searching on finds before the first
empty one. Either a match fails, since the tokenizer fails with its line, and nothing is drawn; or
all answers are given, and the decorations that are drawn are those of the matches that are
masked, with the stretches that are planned for them, before any decoration is removed. -/
theorem apply_sends (x : Entry) (caretStyle : String) (h : m.decorations.Serves host)
    {document : Document} (hdocument : m.decorations.desk.document? host = some document)
    {ends : List (Int × Int)} (hends : m.decorations.desk.ends host = .ok ends)
    (hlines : ∀ t, m.scopes.tokenizer = some t →
      ∃ d, m.scopes.document = some d ∧ d.lines = document.lines) :
    let v : Scene := ⟨document, ends, m.scopes, caretStyle⟩
    x.pattern.Finds document.text.toList.toArray 0 (x.found v) ∧
    ∃ (created : List Call) (m' : Masking),
      (∀ c ∈ created, ∃ handle look, c = .create handle look) ∧
      ((∃ before i rest fault, x.found v = before ++ i :: rest ∧
          (∀ j ∈ before, ∀ fault, ¬ x.FailsAt v j fault) ∧ x.FailsAt v i fault ∧
          (∃ t line, m.scopes.tokenizer = some t ∧
            document.lines[document.lineAt i.start]? = some line ∧
            t.tokenize line (m.scopes.endState? (document.lineAt i.start - 1)) = .error fault ∧
            fault.isGrammar = false) ∧
          apply x.pattern x.mask caretStyle m = .error fault m' ∧
          Sends host m.decorations created m'.decorations) ∨
        ((∀ i ∈ x.found v, ∀ fault, ¬ x.FailsAt v i fault) ∧
          apply x.pattern x.mask caretStyle m = .ok (x.masked v).length m' ∧
          ∃ (handle : String → Nat) (gone : List Nat),
            (∀ d ∈ x.plan v (x.masked v), m'.decorations.handle? d.1 = some (handle d.1)) ∧
            (∀ old ∈ gone, ∃ key ∉ (x.plan v (x.masked v)).map (·.1),
              m.decorations.handle? key = some old) ∧
            Sends host m.decorations (created ++
              (x.plan v (x.masked v)).map (fun d => Call.set (handle d.1) d.2) ++
              gone.flatMap removal) m'.decorations)) := by
  intro v
  refine ⟨x.pattern.finds_matchesIn _, ?_⟩
  obtain ⟨created₁, m₁, hdraw, hcreated₁, hsends₁, hbase, hother⟩ :=
    apply_eq_draw x caretStyle h hdocument hends
  cases hfailure : failure? (x.decided v) with
  | some fault =>
    obtain ⟨created₂, m₂, hfailed, hcreated₂, hsends₂⟩ :=
      draw_sends_of_failure hsends₁.serves hbase hfailure
    obtain ⟨before, i, rest, hfound, hfails, hbefore⟩ := Entry.failsAt_of_failure? x hfailure
    exact ⟨created₁ ++ created₂, m₂, List.forall_mem_append.mpr ⟨hcreated₁, hcreated₂⟩,
      Or.inl ⟨before, i, rest, fault, hfound, hbefore, hfails, tokenizer_of_failsAt hlines hfails,
        hdraw.trans hfailed, hsends₁.trans hsends₂⟩⟩
  | none =>
    obtain ⟨created₂, handle, gone, m₂, hdrawn, hcreated₂, hhandle, hgone, hsends₂⟩ :=
      draw_sends hsends₁.serves hbase hfailure
    refine ⟨created₁ ++ created₂, m₂, List.forall_mem_append.mpr ⟨hcreated₁, hcreated₂⟩,
      Or.inr ⟨(Entry.placements_of_failure? x hfailure).1, hdraw.trans hdrawn, handle, gone,
        hhandle, ?_, ?_⟩⟩
    · intro old hold
      obtain ⟨key, hkey, hwas⟩ := hgone old hold
      -- the pattern's key is always planned for
      have hne : key ≠ x.base := by
        rintro rfl
        exact hkey (by simp [Entry.plan])
      exact ⟨key, hkey, (hother key hne).symm.trans hwas⟩
    · have hsends := hsends₁.trans hsends₂
      simpa only [List.append_assoc] using hsends

/-- Masking of an editor with two letters, in a line that is all of one scope. -/
def plain : Masking where
  decorations := { desk := Desk.twoLetters, host := some "e" }
  scopes :=
    { document := some { text := "a b" }
      tokenizer := some
        { serial := 1
          scopeName := "text"
          tokenize := fun line previous =>
            .ok ⟨[⟨0, line.toList.length, ["text.plain"]⟩], previous.getD ⟨[]⟩⟩ } }

/-- An entry that asks for the scope, with a text of its own for one of the letters. -/
def letters : Entry :=
  (Entry.read? (.obj [("pattern", .str "a|b"), ("scope", .str "text"),
    ("replace", .obj [("a", .str "x")])])).get (by decide +kernel)

/-- Two letters, one with a replacement of its own: its layer is drawn first, the entry's own one
last. -/
theorem letters_sent : ∃ (created : List Call) (m' : Masking) (own base : Nat),
    apply letters.pattern letters.mask "line" plain = .ok 2 m' ∧
      (∀ c ∈ created, ∃ handle look, c = .create handle look) ∧
      m'.decorations.desk.calls =
        [("e", .set base [⟨2, 3, none⟩]), ("e", .set own [⟨0, 1, none⟩])] ++
          (created.map ("e", ·)).reverse := by
  let v : Scene := ⟨{ text := "a b" }, [], plain.scopes, "line"⟩
  -- what the theorem asks for, of a desk with one editor that grants everything
  have hserves : plain.decorations.Serves "e" :=
    ⟨⟨_, rfl, ⟨rfl, fun _ => rfl⟩⟩, rfl⟩
  have hdocument : plain.decorations.desk.document? "e" = some { text := "a b" } := rfl
  have hends : plain.decorations.desk.ends "e" = .ok [] := rfl
  have hempty : plain.decorations.desk.calls = [] := rfl
  have hplan : letters.plan v (letters.masked v) =
      [("a|b@@@a", [⟨0, 1, none⟩]), ("a|b", [⟨2, 3, none⟩])] := by decide +kernel
  have hcount : (letters.masked v).length = 2 := by decide +kernel
  have houtcome : Step.outcome (apply letters.pattern letters.mask "line") plain = .ok 2 := by
    decide +kernel
  obtain ⟨-, created, m', hcreated, hfailed | ⟨-, happly, handle, gone, -, hgone, hsends⟩⟩ :=
    apply_sends letters "line" hserves hdocument hends (fun t _ => ⟨_, rfl, rfl⟩)
  · obtain ⟨_, _, _, fault, _, _, _, _, happly, _⟩ := hfailed
    rw [Step.eq_of_outcome houtcome] at happly
    cases happly
  · -- nothing had a handle before, so nothing is removed
    have hnone : gone = [] := by
      refine List.eq_nil_iff_forall_not_mem.mpr fun old hold => ?_
      obtain ⟨key, _, hwas⟩ := hgone old hold
      cases hwas
    have hcalls := hsends.calls
    rw [hplan, hnone, hempty] at hcalls
    rw [hcount] at happly
    exact ⟨created, m', handle "a|b@@@a", handle "a|b", happly, hcreated, by simpa using hcalls⟩

end Masking

end Conceal
