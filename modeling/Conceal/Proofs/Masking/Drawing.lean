import Conceal.Masking
import Conceal.Proofs.Decoration.Board
import Conceal.Proofs.Json.Keys
import Mathlib.Data.List.Dedup

/-!
What applying an entry draws: one decoration for its pattern, and one for every text of its own
replacement that is masked somewhere, each with the stretches decided for it. `collect` gathers the
stretches the way in which they come up; main statement: `mem_collect_iff`, by which it gathers
those of the drawing.
-/

namespace Conceal

/-- A decoration that is drawn. -/
structure Drawn where
  key : String
  look : Look
  stretches : List Stretch
deriving DecidableEq, Repr

/-- A pattern and its mask. -/
structure Entry where
  pattern : Pattern
  mask : Mask

/-- What masks are decided for. -/
structure Scene where
  document : Document
  ends : List (Int × Int)
  scopes : LineScopes
  caretStyle : String

namespace Masking

/-- The key of a pattern's own decoration is not that of any text. -/
theorem derivedKey_ne (base text : String) : Mask.derivedKey base text ≠ base := by
  intro h
  -- a derived key is longer than its base
  have := congrArg String.length h
  simp only [Mask.derivedKey, Mask.keySeparator, String.length_append] at this
  have hseparator : "@@@".length = 3 := rfl
  omega

/-- Different texts have different keys of their own. -/
theorem derivedKey_inj {base text text' : String}
    (h : Mask.derivedKey base text = Mask.derivedKey base text') : text = text' := by
  have := congrArg String.toList h
  simp only [Mask.derivedKey, String.toList_append, List.append_cancel_left_eq] at this
  exact String.toList_inj.mp this

/-! ## Decisions -/

/-- The matches that are masked, up to the first failure. -/
def placements : List Decision → List Placement
  | [] => []
  | .place p :: rest => p :: placements rest
  | .notice _ :: rest => placements rest
  | .fail _ :: _ => []

/-- The first failure. -/
def failure? : List Decision → Option Fault
  | [] => none
  | .place _ :: rest => failure? rest
  | .notice _ :: rest => failure? rest
  | .fail f :: _ => some f

/-- Notices place nothing. -/
theorem placements_append_notices (notices : List Notice) (ds : List Decision) :
    placements (notices.map .notice ++ ds) = placements ds := by
  induction notices with
  | nil => rfl
  | cons n rest ih => exact ih

/-- A replacement of its own is that of the mask. -/
theorem own_of_mem_placements {v : Sight} {seen : List (Nat × Option (List Token))}
    {found : List Regex.Found} {p : Placement} (hp : p ∈ placements (decisions v seen found))
    {text : String} {o : Override} (hown : p.own = some (text, o)) :
    v.mask.override? text = some o := by
  -- the lines whose tokens are known grow along the matches
  induction found generalizing seen with
  | nil => cases hp
  | cons m rest ih =>
    simp only [decisions] at hp
    split at hp
    · exact ih hp
    · -- a match is masked with the replacement that its text has
      let given := (v.mask.override? (Regex.slice v.text m.start m.stop)).map fun o =>
        (Regex.slice v.text m.start m.stop, o)
      have hplace (stretch : Stretch) (others : List Decision)
          (hothers : p ∈ placements others → v.mask.override? text = some o)
          (h : p ∈ placements (.place ⟨given, stretch⟩ :: others)) :
          v.mask.override? text = some o := by
        rcases List.mem_cons.mp h with rfl | h
        · simp only [given, Option.map_eq_some_iff, Prod.mk.injEq] at hown
          obtain ⟨o', ho', rfl, rfl⟩ := hown
          exact ho'
        · exact hothers h
      split at hp
      · exact hplace _ _ ih hp
      · split at hp
        · split at hp
          · exact hplace _ _ ih hp
          · exact ih hp
        · split at hp
          · cases hp
          · rw [placements_append_notices] at hp
            split at hp
            · exact hplace _ _ ih hp
            · exact ih hp

/-! ## Drawings -/

/-- The stretches of a key. -/
def stretchesOf (base : String) (ps : List Placement) (key : String) : List Stretch :=
  (ps.filter fun p => keyOf base p = key).map Placement.stretch

/-- The texts with a replacement of their own that are masked somewhere. -/
def ownTexts (ps : List Placement) : List (String × Override) := (ps.filterMap Placement.own).dedup

/-- The decorations of a pattern and its mask, given the matches that are masked. -/
def drawing (base : String) (mask : Mask) (ps : List Placement) : List Drawn :=
  ⟨base, mask.baseLook, stretchesOf base ps base⟩ ::
    (ownTexts ps).map fun (text, o) =>
      let key := Mask.derivedKey base text
      ⟨key, Mask.overrideLook o, stretchesOf base ps key⟩

/-- The stretches of keys as they come up. -/
def collect (base : String) (ps : List Placement) (found : List (String × List Stretch)) :
    List (String × List Stretch) :=
  ps.foldl (fun found p => addStretch found (keyOf base p) p.stretch) found

/-- A stretch is added to those of its key, and to no others. -/
private theorem lookup_addStretch (found : List (String × List Stretch)) (key k : String)
    (s : Stretch) :
    (addStretch found key s).lookup k =
      if k = key then some ((found.lookup key).getD [] ++ [s]) else found.lookup k := by
  induction found with
  | nil =>
    by_cases h : k = key
    · simp [addStretch, h]
    · simp [addStretch, List.lookup_cons, h, beq_eq_false_iff_ne.mpr h]
  | cons d rest ih =>
    obtain ⟨k', ss⟩ := d
    simp only [addStretch]
    split
    next heq =>
      subst heq
      by_cases h : k = k'
      · simp [h]
      · simp [List.lookup_cons, h, beq_eq_false_iff_ne.mpr h]
    next hne =>
      have hne' : (key == k') = false := beq_eq_false_iff_ne.mpr (Ne.symm hne)
      by_cases h : k = k'
      · subst h
        simp [hne]
      · have h' : (k == k') = false := beq_eq_false_iff_ne.mpr h
        simpa only [List.lookup_cons, h', hne'] using ih

/-- A new key comes last; one that is there keeps its place. -/
theorem keys_addStretch (found : List (String × List Stretch)) (key : String) (s : Stretch) :
    (addStretch found key s).map (·.1) =
      if key ∈ found.map (·.1) then found.map (·.1) else found.map (·.1) ++ [key] := by
  induction found with
  | nil => simp [addStretch]
  | cons d rest ih =>
    obtain ⟨k', ss⟩ := d
    simp only [addStretch]
    split
    next heq => simp [heq]
    next hne =>
      simp only [List.map_cons, ih, List.mem_cons, Ne.symm hne, false_or]
      split <;> rfl

theorem mem_keys_addStretch {found : List (String × List Stretch)} {key k : String} {s : Stretch} :
    k ∈ (addStretch found key s).map (·.1) ↔ k = key ∨ k ∈ found.map (·.1) := by
  rw [keys_addStretch]
  split
  next hmem => exact ⟨Or.inr, fun h => h.elim (fun h => h ▸ hmem) id⟩
  · rw [List.mem_append, List.mem_singleton, or_comm]

/-- Keys stay distinct when a stretch is added. -/
theorem nodup_addStretch {found : List (String × List Stretch)} (h : (found.map (·.1)).Nodup)
    (key : String) (s : Stretch) : ((addStretch found key s).map (·.1)).Nodup := by
  rw [keys_addStretch]
  split
  · exact h
  next hmem =>
    rw [List.nodup_append]
    refine ⟨h, by simp, ?_⟩
    rintro k hk k' hk' rfl
    exact hmem (List.mem_singleton.mp hk' ▸ hk)

variable {base : String} {ps : List Placement} {found : List (String × List Stretch)}

/-- A key has the stretches that it had, and then those of its matches. -/
theorem lookup_collect (base : String) (ps : List Placement)
    (found : List (String × List Stretch)) (k : String) :
    ((collect base ps found).lookup k).getD [] =
      (found.lookup k).getD [] ++ stretchesOf base ps k := by
  induction ps generalizing found with
  | nil => simp [collect, stretchesOf]
  | cons p rest ih =>
    show ((collect base rest (addStretch found (keyOf base p) p.stretch)).lookup k).getD [] = _
    rw [ih, lookup_addStretch]
    by_cases h : keyOf base p = k
    · simp [stretchesOf, h]
    · simp [stretchesOf, h, Ne.symm h]

/-- The keys are those that were there and those of the matches. -/
theorem mem_keys_collect {k : String} :
    k ∈ (collect base ps found).map (·.1) ↔ k ∈ found.map (·.1) ∨ k ∈ ps.map (keyOf base) := by
  induction ps generalizing found with
  | nil => simp [collect]
  | cons p rest ih =>
    show k ∈ (collect base rest (addStretch found (keyOf base p) p.stretch)).map (·.1) ↔ _
    rw [ih, mem_keys_addStretch, List.map_cons, List.mem_cons, or_comm (a := k = keyOf base p),
      or_assoc]

/-- Keys stay distinct while stretches are collected. -/
theorem nodup_collect (h : (found.map (·.1)).Nodup) :
    ((collect base ps found).map (·.1)).Nodup := by
  induction ps generalizing found with
  | nil => exact h
  | cons p rest ih => exact ih (nodup_addStretch h _ _)

/-- What an entry draws: its own layer, and one for every replacement of its own. -/
theorem mem_drawing {mask : Mask} {d : Drawn} :
    d ∈ drawing base mask ps ↔ d = ⟨base, mask.baseLook, stretchesOf base ps base⟩ ∨
      ∃ p ∈ ps, ∃ text o, p.own = some (text, o) ∧
        d = ⟨keyOf base p, Mask.overrideLook o, stretchesOf base ps (keyOf base p)⟩ := by
  simp only [drawing, ownTexts, List.mem_cons, List.mem_map, List.mem_dedup, List.mem_filterMap]
  refine or_congr_right ⟨?_, ?_⟩
  · rintro ⟨⟨text, o⟩, ⟨p, hp, hown⟩, rfl⟩
    exact ⟨p, hp, text, o, hown, by simp [keyOf, hown]⟩
  · rintro ⟨p, hp, text, o, hown, rfl⟩
    exact ⟨(text, o), ⟨p, hp, hown⟩, by simp [keyOf, hown]⟩

/-- Every layer is drawn with the stretches of its key. -/
theorem stretches_of_mem_drawing {mask : Mask} {d : Drawn} (hd : d ∈ drawing base mask ps) :
    d.stretches = stretchesOf base ps d.key := by
  rcases mem_drawing.mp hd with rfl | ⟨p, _, text, o, _, rfl⟩ <;> rfl

/-- Collecting gives the keys of the drawing their stretches. -/
theorem mem_collect_iff (mask : Mask) {k : String} {ss : List Stretch} :
    (k, ss) ∈ collect base ps [(base, [])] ↔
      ∃ d ∈ drawing base mask ps, d.key = k ∧ d.stretches = ss := by
  -- what is collected has every key once, so its stretches are those that a lookup gives
  have hnodup : ((collect base ps [(base, [])]).map (·.1)).Nodup := nodup_collect (by simp)
  have hstretches : ∀ {k ss}, (k, ss) ∈ collect base ps [(base, [])] →
      ss = stretchesOf base ps k := by
    intro k ss hmem
    have hlookup := lookup_collect base ps [(base, [])] k
    rw [lookup_of_mem hnodup hmem] at hlookup
    have hnone : (List.lookup k [(base, ([] : List Stretch))]).getD [] = [] := by
      by_cases h : k = base
      · simp [h]
      · simp [List.lookup_cons, beq_eq_false_iff_ne.mpr h]
    simpa [hnone] using hlookup
  have hkeys : k ∈ (collect base ps [(base, [])]).map (·.1) ↔
      ∃ d ∈ drawing base mask ps, d.key = k := by
    rw [mem_keys_collect, List.map_singleton, List.mem_singleton, List.mem_map]
    constructor
    · rintro (rfl | ⟨p, hp, rfl⟩)
      · exact ⟨_, mem_drawing.mpr (Or.inl rfl), rfl⟩
      · cases hown : p.own with
        | none => exact ⟨_, mem_drawing.mpr (Or.inl rfl), by simp [keyOf, hown]⟩
        | some own => exact ⟨_, mem_drawing.mpr (Or.inr ⟨p, hp, own.1, own.2, hown, rfl⟩), rfl⟩
    · rintro ⟨d, hd, rfl⟩
      rcases mem_drawing.mp hd with rfl | ⟨p, hp, text, o, _, rfl⟩
      · exact Or.inl rfl
      · exact Or.inr ⟨p, hp, rfl⟩
  constructor
  · intro hmem
    obtain ⟨d, hd, hkey⟩ := hkeys.mp (List.mem_map_of_mem hmem)
    refine ⟨d, hd, hkey, ?_⟩
    rw [stretches_of_mem_drawing hd, hkey, hstretches hmem]
  · rintro ⟨d, hd, rfl, rfl⟩
    obtain ⟨⟨k, ss⟩, hmem, hk⟩ := List.mem_map.mp (hkeys.mpr ⟨d, hd, rfl⟩)
    obtain rfl : k = d.key := hk
    rw [stretches_of_mem_drawing hd, ← hstretches hmem]
    exact hmem

end Masking

/-! ## Entries -/

/-- The replacements of exact texts. -/
def Mask.overrides (m : Mask) : List (String × Override) :=
  match m.replacement with
  | .same _ => []
  | .byText overrides => overrides

/-- An override that is found is one of the mask. -/
theorem Mask.mem_overrides {m : Mask} {text : String} {o : Override}
    (h : m.override? text = some o) : (text, o) ∈ m.overrides := by
  cases hreplacement : m.replacement with
  | same => simp [Mask.override?, hreplacement] at h
  | byText overrides =>
    simp only [Mask.override?, hreplacement] at h
    obtain ⟨before, rest, rfl, _⟩ := List.lookup_eq_some_iff.mp h
    simp [Mask.overrides, hreplacement]

namespace Entry

open Masking

/-- Reads an entry of the settings, unless it is no mask. -/
def read? (entry : Json) : Option Entry :=
  match Pattern.ofJson entry, Mask.ofJson entry with
  | .ok pattern, .ok mask => some ⟨pattern, mask⟩
  | _, _ => none

/-- The key of the pattern's own decoration. -/
abbrev base (x : Entry) : String := x.pattern.source

/-- The keys that an entry can have decorations for, with their looks. -/
def looks (x : Entry) : List (String × Look) :=
  (x.base, x.mask.baseLook) ::
    x.mask.overrides.map fun (text, o) => (Mask.derivedKey x.base text, Mask.overrideLook o)

/-- What is decided about the matches of an entry. -/
def decided (x : Entry) (v : Scene) : List Decision :=
  decisions
    { document := v.document
      text := v.document.text.toList.toArray
      selections := v.ends.map fun (anchor, active) => orderEnds anchor active
      early := revealsEarly v.caretStyle
      scopes := v.scopes
      mask := x.mask } [] (x.pattern.matchesIn v.document.text.toList.toArray)

/-- What applying an entry draws, unless it fails. -/
def drawing (x : Entry) (v : Scene) : Except Fault (List Drawn) :=
  match failure? (x.decided v) with
  | some fault => .error fault
  | none => .ok (Masking.drawing x.base x.mask (placements (x.decided v)))

/-- A match with a replacement of its own has it from the mask. -/
theorem override?_of_mem {x : Entry} {v : Scene} {p : Placement}
    (hp : p ∈ placements (x.decided v)) {text : String} {o : Override}
    (hown : p.own = some (text, o)) : x.mask.override? text = some o :=
  own_of_mem_placements hp hown

/-- The look of such a match is one of the entry. -/
theorem own_mem_looks {x : Entry} {v : Scene} {p : Placement}
    (hp : p ∈ placements (x.decided v)) {text : String} {o : Override}
    (hown : p.own = some (text, o)) : (keyOf x.base p, Mask.overrideLook o) ∈ x.looks := by
  refine List.mem_cons_of_mem _ (List.mem_map.mpr ⟨(text, o), ?_, by simp [keyOf, hown]⟩)
  exact Mask.mem_overrides (override?_of_mem hp hown)

/-- The pattern's own decoration is always drawn. -/
theorem base_mem_drawing {x : Entry} {v : Scene} {drawn : List Drawn}
    (h : x.drawing v = .ok drawn) : x.base ∈ drawn.map Drawn.key := by
  unfold drawing at h
  split at h
  · cases h
  · cases h
    exact List.mem_cons_self

/-- What is drawn has a look that the entry has for its key. -/
theorem mem_looks_of_mem_drawing {x : Entry} {v : Scene} {drawn : List Drawn}
    (h : x.drawing v = .ok drawn) {d : Drawn} (hd : d ∈ drawn) : (d.key, d.look) ∈ x.looks := by
  unfold drawing at h
  split at h
  · cases h
  · cases h
    rcases mem_drawing.mp hd with rfl | ⟨p, hp, text, o, hown, rfl⟩
    · exact List.mem_cons_self
    · exact own_mem_looks hp hown

/-- No key is drawn twice. -/
theorem nodup_drawing {x : Entry} {v : Scene} {drawn : List Drawn} (h : x.drawing v = .ok drawn) :
    (drawn.map Drawn.key).Nodup := by
  unfold drawing at h
  split at h
  · cases h
  · cases h
    simp only [Masking.drawing, List.map_cons, List.map_map]
    rw [List.nodup_cons]
    constructor
    · intro hmem
      obtain ⟨own, _, heq⟩ := List.mem_map.mp hmem
      exact derivedKey_ne x.base own.1 heq
    · refine List.Nodup.map_on ?_ (List.nodup_dedup _)
      rintro ⟨text, o⟩ hmem ⟨text', o'⟩ hmem' heq
      obtain rfl := derivedKey_inj heq
      obtain ⟨p, hp, hown⟩ := List.mem_filterMap.mp (List.mem_dedup.mp hmem)
      obtain ⟨p', hp', hown'⟩ := List.mem_filterMap.mp (List.mem_dedup.mp hmem')
      have ho := override?_of_mem hp hown
      rw [override?_of_mem hp' hown'] at ho
      rw [Option.some.inj ho]

end Entry

end Conceal
