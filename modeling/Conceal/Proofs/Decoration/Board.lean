import Conceal.Decoration.Cache
import Mathlib.Data.List.Nodup
import Mathlib.Data.List.Perm.Basic

/-!
Boards: the decorations of the host as one plain value, every layer of its canvas under the key that
it has. A board changes in three ways: a key gets a layer, the layer of a key gets stretches, and a
key is removed. Main notions: `Board.Sound`, which no change breaks, and `Board.Evolves`, which says
for two boards where the layers of the later one come from and which of them the calls in between
have drawn.
-/

namespace Conceal

/-- Does a call only give a decoration its stretches? -/
def Call.isSet : Call → Bool
  | .set _ _ => true
  | _ => false

/-- Does a call give the decoration with a handle its stretches? -/
def Call.sets (handle : Nat) : Call → Bool
  | .set h _ => h = handle
  | _ => false

/-- The decorations of a host: how many handles were made, the layers by key, and the calls to all
canvases, the newest first. -/
structure Board where
  host : String
  made : Nat
  slots : List (String × Layer)
  calls : List (String × Call)

namespace Board

/-- The keys. -/
def keys (b : Board) : List String := b.slots.map (·.1)

/-- The layer of a key. -/
def slot? (b : Board) (key : String) : Option Layer := b.slots.lookup key

/-- The handles by key. -/
def handles (b : Board) : List (String × Nat) := b.slots.map fun s => (s.1, s.2.handle)

/-- A key gets an empty layer, unless it has one. -/
def ensure (b : Board) (key : String) (look : Look) : Board :=
  match b.slot? key with
  | some _ => b
  | none =>
    { b with
      made := b.made + 1
      slots := b.slots ++ [(key, ⟨b.made + 1, look, []⟩)]
      calls := (b.host, .create (some (b.made + 1)) look) :: b.calls }

/-- The layer of a key gets stretches. -/
def draw (b : Board) (key : String) (stretches : List Stretch) : Board :=
  match b.slot? key with
  | none => b
  | some l =>
    { b with
      slots := b.slots.map fun s => if s.1 = key then (s.1, { s.2 with stretches }) else s
      calls := (b.host, .set l.handle stretches) :: b.calls }

/-- A key is removed; its layer is emptied before. -/
def erase (b : Board) (key : String) : Board :=
  match b.slot? key with
  | none => b
  | some l =>
    { b with
      slots := b.slots.filter (·.1 != key)
      calls := (b.host, .dispose l.handle) :: (b.host, .set l.handle []) :: b.calls }

/-- Keys get empty layers in order. -/
def ensureAll (b : Board) (looks : List (String × Look)) : Board :=
  looks.foldl (fun b d => b.ensure d.1 d.2) b

/-- The layers of keys get stretches in order. -/
def drawAll (b : Board) (found : List (String × List Stretch)) : Board :=
  found.foldl (fun b d => b.draw d.1 d.2) b

/-- Keys are removed in order. -/
def eraseAll (b : Board) (keys : List String) : Board := keys.foldl erase b

/-- All keys but some are removed. -/
def keepOnly (b : Board) (keep : List String) : Board :=
  b.eraseAll (b.keys.filter fun key => !keep.contains key)

/-- No key comes twice, no two layers share a handle, and all handles have been made. -/
structure Sound (b : Board) : Prop where
  keys : b.keys.Nodup
  handles : (b.slots.map (·.2.handle)).Nodup
  bound : ∀ s ∈ b.slots, s.2.handle ≤ b.made

/-! ## Layers by key -/

theorem mem_keys {b : Board} {key : String} : key ∈ b.keys ↔ ∃ l, (key, l) ∈ b.slots := by
  simp [keys]

/-- A key has no layer exactly if it is not on the board. -/
theorem slot?_eq_none {b : Board} {key : String} : b.slot? key = none ↔ key ∉ b.keys := by
  rw [slot?, List.lookup_eq_none_iff, mem_keys]
  constructor
  · rintro h ⟨l, hl⟩
    simpa using h _ hl
  · intro h s hs
    simp only [bne_iff_ne, ne_eq]
    rintro rfl
    exact h ⟨s.2, hs⟩

theorem mem_of_slot? {b : Board} {key : String} {l : Layer} (h : b.slot? key = some l) :
    (key, l) ∈ b.slots := by
  obtain ⟨before, rest, heq, _⟩ := List.lookup_eq_some_iff.mp h
  rw [heq]
  simp

/-- Two layers under one key are the same. -/
theorem Sound.layer_unique {b : Board} (h : b.Sound) {key : String} {l l' : Layer}
    (hl : (key, l) ∈ b.slots) (hl' : (key, l') ∈ b.slots) : l = l' :=
  congrArg Prod.snd (List.inj_on_of_nodup_map h.keys hl hl' rfl)

/-- Two keys with one handle are the same. -/
theorem Sound.key_unique {b : Board} (h : b.Sound) {s s' : String × Layer} (hs : s ∈ b.slots)
    (hs' : s' ∈ b.slots) (heq : s.2.handle = s'.2.handle) : s = s' :=
  List.inj_on_of_nodup_map h.handles hs hs' heq

/-- A handle stands for a key. -/
theorem Sound.handle_eq_iff {b : Board} (h : b.Sound) {s : String × Layer} (hs : s ∈ b.slots)
    {key : String} {l : Layer} (hl : (key, l) ∈ b.slots) :
    s.2.handle = l.handle ↔ s.1 = key := by
  constructor
  · intro heq
    exact congrArg Prod.fst (h.key_unique hs hl heq)
  · rintro rfl
    rw [h.layer_unique hs hl]

/-- On a sound board a key has one layer. -/
theorem Sound.slot?_eq_some {b : Board} (h : b.Sound) {key : String} {l : Layer} :
    b.slot? key = some l ↔ (key, l) ∈ b.slots := by
  refine ⟨mem_of_slot?, fun hl => ?_⟩
  cases hs : b.slot? key with
  | none => exact absurd (mem_keys.mpr ⟨l, hl⟩) (slot?_eq_none.mp hs)
  | some l' => rw [h.layer_unique hl (mem_of_slot? hs)]

/-! ## Where layers come from -/

/-- Do calls give the layer of a handle stretches? -/
def Sets (host : String) (calls : List (String × Call)) (handle : Nat) : Prop :=
  ∃ stretches, (host, Call.set handle stretches) ∈ calls

instance (host : String) (calls : List (String × Call)) (handle : Nat) :
    Decidable (Sets host calls handle) :=
  decidable_of_iff (∃ c ∈ calls, c.1 = host ∧ c.2.sets handle = true) <| by
    constructor
    · rintro ⟨⟨name, call⟩, hmem, rfl, hsets⟩
      cases call with
      | set h stretches => exact ⟨stretches, of_decide_eq_true hsets ▸ hmem⟩
      | _ => cases hsets
    · rintro ⟨stretches, hmem⟩
      exact ⟨_, hmem, rfl, decide_eq_true rfl⟩

private theorem sets_append {host : String} {xs ys : List (String × Call)} {handle : Nat} :
    Sets host (xs ++ ys) handle ↔ Sets host xs handle ∨ Sets host ys handle := by
  simp [Sets, exists_or]

/-- The later board has layers of the earlier one, which keep their key, handle and look, and new
ones with some of the given looks. The calls in between draw the layers of the given keys, and the
others have the stretches that they had, new ones none. -/
structure Evolves (looks : List (String × Look)) (drawn : List String) (b b' : Board) : Prop where
  host : b'.host = b.host
  made : b.made ≤ b'.made
  origin : ∀ s ∈ b'.slots,
    (∃ l, (s.1, l) ∈ b.slots ∧ l.handle = s.2.handle ∧ l.look = s.2.look ∧
      (s.1 ∉ drawn → l.stretches = s.2.stretches)) ∨
    (b.made < s.2.handle ∧ (s.1, s.2.look) ∈ looks ∧ (s.1 ∉ drawn → s.2.stretches = []))
  calls : ∃ new, b'.calls = new ++ b.calls ∧ (∀ c ∈ new, c.1 = b.host) ∧
    (∀ handle, Sets b.host new handle → handle ≤ b'.made) ∧
    ∀ s ∈ b'.slots, Sets b.host new s.2.handle ↔ s.1 ∈ drawn

/-- A board that stays as it is has evolved without drawing. -/
theorem Evolves.refl (looks : List (String × Look)) (b : Board) : Evolves looks [] b b where
  host := rfl
  made := Nat.le_refl _
  origin s hs := Or.inl ⟨s.2, hs, rfl, rfl, fun _ => rfl⟩
  calls := ⟨[], rfl, by simp, by simp [Sets], by simp [Sets]⟩

/-- Two changes in a row, unless the later one makes layers anew that the earlier one draws. -/
theorem Evolves.trans {looks looks' : List (String × Look)} {drawn drawn' : List String}
    {b b' b'' : Board} (h : Evolves looks drawn b b') (h' : Evolves looks' drawn' b' b'')
    (hnew : ∀ d ∈ looks', d.1 ∉ drawn) :
    Evolves (looks ++ looks') (drawn ++ drawn') b b'' where
  host := h'.host.trans h.host
  made := Nat.le_trans h.made h'.made
  origin s hs := by
    -- where the layer is from: before both, or new in the first or in the second
    rcases h'.origin s hs with ⟨l, hl, hhandle, hlook, hstretches⟩ | ⟨hfresh, hlook, hempty⟩
    · rcases h.origin _ hl with ⟨k, hk, hhandle', hlook', hstretches'⟩ | ⟨hfresh, hlook', hempty⟩
      · refine Or.inl ⟨k, hk, hhandle'.trans hhandle, hlook'.trans hlook, fun hs => ?_⟩
        rw [List.mem_append, not_or] at hs
        exact (hstretches' hs.1).trans (hstretches hs.2)
      · refine Or.inr ⟨hhandle ▸ hfresh, List.mem_append_left _ (hlook ▸ hlook'), fun hs => ?_⟩
        rw [List.mem_append, not_or] at hs
        exact (hstretches hs.2).symm.trans (hempty hs.1)
    · refine Or.inr ⟨Nat.lt_of_le_of_lt h.made hfresh, List.mem_append_right _ hlook, fun hs => ?_⟩
      rw [List.mem_append, not_or] at hs
      exact hempty hs.2
  calls := by
    obtain ⟨new, hcalls, hhost, hbound, hsets⟩ := h.calls
    obtain ⟨new', hcalls', hhost', hbound', hsets'⟩ := h'.calls
    rw [h.host] at hhost' hbound' hsets'
    refine ⟨new' ++ new, by rw [hcalls', hcalls, List.append_assoc], ?_, ?_, ?_⟩
    · intro c hc
      rcases List.mem_append.mp hc with hc | hc
      · exact hhost' c hc
      · exact hhost c hc
    · intro handle hset
      rcases sets_append.mp hset with hset | hset
      · exact hbound' handle hset
      · exact Nat.le_trans (hbound handle hset) h'.made
    · intro s hs
      rw [sets_append, hsets' s hs, List.mem_append, or_comm]
      refine or_congr_left ?_
      rcases h'.origin s hs with ⟨l, hl, hhandle, _⟩ | ⟨hfresh, hlook, _⟩
      · rw [← hhandle]
        exact hsets _ hl
      · -- a handle made later cannot have been drawn before
        refine iff_of_false (fun hset => ?_) (hnew _ hlook)
        exact absurd (hbound _ hset) (Nat.not_le.mpr hfresh)

/-- More looks may be allowed, and the keys that were drawn may be named otherwise. -/
theorem Evolves.mono {looks looks' : List (String × Look)} {drawn drawn' : List String}
    {b b' : Board} (h : Evolves looks drawn b b') (hlooks : ∀ d ∈ looks, d ∈ looks')
    (hdrawn : ∀ key, key ∈ drawn ↔ key ∈ drawn') : Evolves looks' drawn' b b' where
  host := h.host
  made := h.made
  origin s hs := by
    rw [← hdrawn]
    exact (h.origin s hs).imp_right fun ⟨hfresh, hlook, hempty⟩ =>
      ⟨hfresh, hlooks _ hlook, hempty⟩
  calls := by
    obtain ⟨new, hcalls, hhost, hbound, hsets⟩ := h.calls
    exact ⟨new, hcalls, hhost, hbound, fun s hs => (hsets s hs).trans (hdrawn s.1)⟩

/-- When all calls in between only give stretches, the handles stay as they are. -/
def Keeps (b b' : Board) : Prop :=
  ∃ new, b'.calls = new ++ b.calls ∧ ((∀ c ∈ new, c.2.isSet) → b'.handles = b.handles)

theorem Keeps.refl (b : Board) : Keeps b b := ⟨[], rfl, fun _ => rfl⟩

/-- Handles that stay as long as only stretches are given do so over two changes in a row. -/
theorem Keeps.trans {b b' b'' : Board} (h : Keeps b b') (h' : Keeps b' b'') : Keeps b b'' := by
  obtain ⟨new, hcalls, hhandles⟩ := h
  obtain ⟨new', hcalls', hhandles'⟩ := h'
  refine ⟨new' ++ new, by rw [hcalls', hcalls, List.append_assoc], fun hset => ?_⟩
  rw [hhandles' fun c hc => hset c (List.mem_append_left _ hc),
    hhandles fun c hc => hset c (List.mem_append_right _ hc)]

/-- Between two boards only stretches are given, and the handles stay as they are. -/
structure Redraws (b b' : Board) : Prop where
  handles : b'.handles = b.handles
  calls : ∃ new, b'.calls = new ++ b.calls ∧ ∀ c ∈ new, c.2.isSet

theorem Redraws.refl (b : Board) : Redraws b b := ⟨rfl, [], rfl, by simp⟩

/-- Stretches are given, and then stretches are given: that is all that is given. -/
theorem Redraws.trans {b b' b'' : Board} (h : Redraws b b') (h' : Redraws b' b'') :
    Redraws b b'' where
  handles := h'.handles.trans h.handles
  calls := by
    obtain ⟨new, hcalls, hset⟩ := h.calls
    obtain ⟨new', hcalls', hset'⟩ := h'.calls
    refine ⟨new' ++ new, by rw [hcalls', hcalls, List.append_assoc], fun c hc => ?_⟩
    rcases List.mem_append.mp hc with hc | hc
    · exact hset' c hc
    · exact hset c hc

/-- Where only stretches are given the handles stay. -/
theorem Redraws.keeps {b b' : Board} (h : Redraws b b') : Keeps b b' := by
  obtain ⟨new, hcalls, _⟩ := h.calls
  exact ⟨new, hcalls, fun _ => h.handles⟩

/-- The later board has layers with the looks of the earlier one, or with some of the given looks,
and when all calls in between only give stretches, the handles stay as they are. -/
structure Follows (looks : List (String × Look)) (b b' : Board) : Prop where
  host : b'.host = b.host
  origin : ∀ s ∈ b'.slots,
    (∃ l, (s.1, l) ∈ b.slots ∧ l.look = s.2.look) ∨ (s.1, s.2.look) ∈ looks
  keeps : Keeps b b'

theorem Follows.refl (looks : List (String × Look)) (b : Board) : Follows looks b b :=
  ⟨rfl, fun s hs => Or.inl ⟨s.2, hs, rfl⟩, Keeps.refl b⟩

/-- Changes of a board, one after the other, are a change of it. -/
theorem Follows.trans {looks : List (String × Look)} {b b' b'' : Board}
    (h : Follows looks b b') (h' : Follows looks b' b'') : Follows looks b b'' where
  host := h'.host.trans h.host
  origin s hs := by
    rcases h'.origin s hs with ⟨l, hl, hlook⟩ | hlook
    · rw [← hlook]
      exact h.origin _ hl
    · exact Or.inr hlook
  keeps := h.keeps.trans h'.keeps

theorem Follows.mono {looks looks' : List (String × Look)} {b b' : Board}
    (h : Follows looks b b') (hlooks : ∀ d ∈ looks, d ∈ looks') : Follows looks' b b' :=
  ⟨h.host, fun s hs => (h.origin s hs).imp_right (hlooks _), h.keeps⟩

/-- A board that has evolved follows on the earlier one, whatever was drawn. -/
theorem Evolves.follows {looks looks' : List (String × Look)} {drawn : List String} {b b' : Board}
    (h : Evolves looks drawn b b') (hkeeps : Keeps b b') (hlooks : ∀ d ∈ looks, d ∈ looks') :
    Follows looks' b b' where
  host := h.host
  origin s hs := by
    rcases h.origin s hs with ⟨l, hl, _, hlook, _⟩ | ⟨_, hlook, _⟩
    · exact Or.inl ⟨l, hl, hlook⟩
    · exact Or.inr (hlooks _ hlook)
  keeps := hkeeps

/-! ## A key gets a layer -/

section ensure

variable {b : Board} {key : String} {look : Look}

/-- A key that is there needs nothing. -/
theorem ensure_of_mem (h : key ∈ b.keys) (look : Look) : b.ensure key look = b := by
  unfold ensure
  split
  · rfl
  next hs => exact absurd h (slot?_eq_none.mp hs)

/-- The key that is asked for is there, and no other one is new. -/
theorem mem_keys_ensure {k : String} : k ∈ (b.ensure key look).keys ↔ k ∈ b.keys ∨ k = key := by
  by_cases hkey : key ∈ b.keys
  · rw [ensure_of_mem hkey]
    exact ⟨Or.inl, fun h => h.elim id fun h => h ▸ hkey⟩
  · simp [ensure, slot?_eq_none.mpr hkey, keys]

/-- A new layer has a new handle, so a sound board stays sound. -/
theorem Sound.ensure (h : b.Sound) (key : String) (look : Look) : (b.ensure key look).Sound := by
  by_cases hkey : key ∈ b.keys
  · rw [ensure_of_mem hkey]
    exact h
  · simp only [Board.ensure, slot?_eq_none.mpr hkey]
    refine ⟨?_, ?_, ?_⟩
    · simp only [Board.keys, List.map_append, List.map_cons, List.map_nil]
      rw [List.nodup_append]
      refine ⟨h.keys, by simp, ?_⟩
      rintro k hk k' hk' rfl
      exact hkey (List.mem_singleton.mp hk' ▸ hk)
    · simp only [List.map_append, List.map_cons, List.map_nil]
      rw [List.nodup_append]
      refine ⟨h.handles, by simp, ?_⟩
      intro n hn n' hn'
      obtain ⟨s, hs, rfl⟩ := List.mem_map.mp hn
      have := h.bound s hs
      have := List.mem_singleton.mp hn'
      omega
    · intro s hs
      rcases List.mem_append.mp hs with hs | hs
      · exact Nat.le_succ_of_le (h.bound s hs)
      · obtain rfl := List.mem_singleton.mp hs
        exact Nat.le_refl _

/-- Asking for a layer makes it with the look that is asked for. -/
theorem evolves_ensure (b : Board) (key : String) (look : Look) :
    Evolves [(key, look)] [] b (b.ensure key look) := by
  by_cases hkey : key ∈ b.keys
  · rw [ensure_of_mem hkey]
    exact Evolves.refl _ b
  · simp only [ensure, slot?_eq_none.mpr hkey]
    refine ⟨rfl, Nat.le_succ _, ?_, ?_⟩
    · intro s hs
      rcases List.mem_append.mp hs with hs | hs
      · exact Or.inl ⟨s.2, hs, rfl, rfl, fun _ => rfl⟩
      · rw [List.mem_singleton.mp hs]
        exact Or.inr ⟨Nat.lt_succ_self _, List.mem_singleton_self _, fun _ => rfl⟩
    · exact ⟨[_], rfl, by simp, by simp [Sets], by simp [Sets]⟩

/-- Asking for a layer leaves the handles, unless it calls for a new one. -/
theorem keeps_ensure (b : Board) (key : String) (look : Look) : Keeps b (b.ensure key look) := by
  by_cases hkey : key ∈ b.keys
  · rw [ensure_of_mem hkey]
    exact Keeps.refl b
  · simp only [ensure, slot?_eq_none.mpr hkey]
    exact ⟨[_], rfl, fun hset => by simp [Call.isSet] at hset⟩

theorem Sound.ensureAll (h : b.Sound) (looks : List (String × Look)) :
    (b.ensureAll looks).Sound := by
  induction looks generalizing b with
  | nil => exact h
  | cons d rest ih => exact ih (h.ensure d.1 d.2)

/-- The keys that are asked for are there, and no others are new. -/
theorem mem_keys_ensureAll {looks : List (String × Look)} {k : String} :
    k ∈ (b.ensureAll looks).keys ↔ k ∈ b.keys ∨ k ∈ looks.map (·.1) := by
  induction looks generalizing b with
  | nil => simp [Board.ensureAll]
  | cons d rest ih =>
    show k ∈ ((b.ensure d.1 d.2).ensureAll rest).keys ↔ _
    rw [ih, mem_keys_ensure, List.map_cons, List.mem_cons, or_assoc]

/-- Asking for layers makes them with the looks that are asked for. -/
theorem evolves_ensureAll (b : Board) (looks : List (String × Look)) :
    Evolves looks [] b (b.ensureAll looks) := by
  induction looks generalizing b with
  | nil => exact Evolves.refl _ b
  | cons d rest ih => exact (evolves_ensure b d.1 d.2).trans (ih _) (by simp)

theorem keeps_ensureAll (b : Board) (looks : List (String × Look)) :
    Keeps b (b.ensureAll looks) := by
  induction looks generalizing b with
  | nil => exact Keeps.refl b
  | cons d rest ih => exact (keeps_ensure b d.1 d.2).trans (ih _)

/-- Keys that are there need nothing. -/
theorem ensureAll_of_mem {looks : List (String × Look)} (h : ∀ d ∈ looks, d.1 ∈ b.keys) :
    b.ensureAll looks = b := by
  induction looks with
  | nil => rfl
  | cons d rest ih =>
    show (b.ensure d.1 d.2).ensureAll rest = b
    rw [ensure_of_mem (h d List.mem_cons_self), ih fun d hd => h d (List.mem_cons_of_mem _ hd)]

end ensure

/-! ## The layer of a key gets stretches -/

section draw

variable {b : Board} {key : String} {stretches : List Stretch}

/-- Drawing changes no handle. -/
theorem handles_draw (b : Board) (key : String) (stretches : List Stretch) :
    (b.draw key stretches).handles = b.handles := by
  unfold draw
  split
  · rfl
  · simp only [handles, List.map_map]
    refine List.map_congr_left fun s _ => ?_
    simp only [Function.comp]
    split <;> rfl

/-- Boards with the same handles have the same keys. -/
theorem keys_eq_of_handles {b b' : Board} (h : b'.handles = b.handles) : b'.keys = b.keys := by
  have := congrArg (List.map Prod.fst) h
  simpa [handles, keys, Function.comp_def] using this

private theorem host_draw (b : Board) (key : String) (stretches : List Stretch) :
    (b.draw key stretches).host = b.host := by
  unfold draw
  split <;> rfl

private theorem keys_draw (b : Board) (key : String) (stretches : List Stretch) :
    (b.draw key stretches).keys = b.keys :=
  keys_eq_of_handles (handles_draw b key stretches)

/-- Drawing gives one layer its stretches and leaves the others alone. -/
private theorem mem_slots_draw (h : key ∈ b.keys) {s : String × Layer} :
    s ∈ (b.draw key stretches).slots ↔
      ∃ l, (s.1, l) ∈ b.slots ∧ s.2 = if s.1 = key then { l with stretches } else l := by
  unfold draw
  split
  next hs => exact absurd h (slot?_eq_none.mp hs)
  · simp only [List.mem_map]
    constructor
    · rintro ⟨t, ht, rfl⟩
      refine ⟨t.2, ?_, ?_⟩ <;> split <;> first | exact ht | rfl
    · rintro ⟨l, hl, heq⟩
      refine ⟨_, hl, ?_⟩
      split at heq <;> simp_all [Prod.ext_iff]

theorem Sound.draw (h : b.Sound) (key : String) (stretches : List Stretch) :
    (b.draw key stretches).Sound := by
  have hhandles := handles_draw b key stretches
  have hmade : (b.draw key stretches).made = b.made := by unfold Board.draw; split <;> rfl
  have hsnd (b : Board) : b.slots.map (·.2.handle) = b.handles.map Prod.snd := by
    simp [Board.handles, Function.comp_def]
  refine ⟨keys_draw b key stretches ▸ h.keys, ?_, fun s hs => ?_⟩
  · rw [hsnd, hhandles, ← hsnd]
    exact h.handles
  · have hs' : s.2.handle ∈ (b.draw key stretches).slots.map (·.2.handle) :=
      List.mem_map_of_mem (f := fun s : String × Layer => s.2.handle) hs
    rw [hsnd, hhandles, ← hsnd] at hs'
    obtain ⟨t, ht, heq⟩ := List.mem_map.mp hs'
    rw [hmade, ← heq]
    exact h.bound t ht

/-- Drawing a layer that is there sends one call, to its handle. -/
theorem Sound.evolves_draw (h : b.Sound) (hkey : key ∈ b.keys) (stretches : List Stretch) :
    Evolves [] [key] b (b.draw key stretches) where
  host := host_draw b key stretches
  made := by unfold Board.draw; split <;> exact Nat.le_refl _
  origin s hs := by
    obtain ⟨l, hl, heq⟩ := (mem_slots_draw hkey).mp hs
    refine Or.inl ⟨l, hl, ?_⟩
    rw [heq]
    split
    · exact ⟨rfl, rfl, fun hne => absurd (List.mem_singleton.mpr ‹_›) hne⟩
    · exact ⟨rfl, rfl, fun _ => rfl⟩
  calls := by
    obtain ⟨l, hl⟩ := mem_keys.mp hkey
    have hcalls : (b.draw key stretches).calls =
        [(b.host, .set l.handle stretches)] ++ b.calls := by
      simp [Board.draw, h.slot?_eq_some.mpr hl]
    have hmade : (b.draw key stretches).made = b.made := by unfold Board.draw; split <;> rfl
    refine ⟨_, hcalls, by simp, ?_, fun s hs => ?_⟩
    · rintro handle ⟨ss, hss⟩
      simp only [List.mem_singleton, Prod.mk.injEq, Call.set.injEq, true_and] at hss
      rw [hss.1, hmade]
      exact h.bound _ hl
    · obtain ⟨k, hk, heq⟩ := (mem_slots_draw hkey).mp hs
      have hhandle : s.2.handle = k.handle := by rw [heq]; split <;> rfl
      rw [List.mem_singleton, hhandle, ← h.handle_eq_iff hk hl]
      simp [Sets]

theorem host_drawAll (b : Board) (found : List (String × List Stretch)) :
    (b.drawAll found).host = b.host := by
  induction found generalizing b with
  | nil => rfl
  | cons d rest ih => exact (ih (b.draw d.1 d.2)).trans (host_draw b d.1 d.2)

theorem keys_drawAll (b : Board) (found : List (String × List Stretch)) :
    (b.drawAll found).keys = b.keys := by
  induction found generalizing b with
  | nil => rfl
  | cons d rest ih => exact (ih (b.draw d.1 d.2)).trans (keys_draw b d.1 d.2)

theorem Sound.drawAll (h : b.Sound) (found : List (String × List Stretch)) :
    (b.drawAll found).Sound := by
  induction found generalizing b with
  | nil => exact h
  | cons d rest ih => exact ih (h.draw d.1 d.2)

/-- Drawing layers that are there sends one call for each. -/
theorem Sound.evolves_drawAll (h : b.Sound) {found : List (String × List Stretch)}
    (hkeys : ∀ d ∈ found, d.1 ∈ b.keys) :
    Evolves [] (found.map (·.1)) b (b.drawAll found) := by
  induction found generalizing b with
  | nil => exact Evolves.refl _ b
  | cons d rest ih =>
    have hrest : ∀ e ∈ rest, e.1 ∈ (b.draw d.1 d.2).keys := fun e he =>
      keys_draw b d.1 d.2 ▸ hkeys e (List.mem_cons_of_mem _ he)
    exact (h.evolves_draw (hkeys d List.mem_cons_self) d.2).trans (ih (h.draw d.1 d.2) hrest)
      (by simp)

/-- Keys that come once have the stretches that they are given. -/
theorem Sound.stretches_drawAll (h : b.Sound) {found : List (String × List Stretch)}
    (hkeys : ∀ d ∈ found, d.1 ∈ b.keys) (hnodup : (found.map (·.1)).Nodup)
    {d : String × List Stretch} (hd : d ∈ found) {l : Layer}
    (hl : (d.1, l) ∈ (b.drawAll found).slots) : l.stretches = d.2 := by
  induction found generalizing b with
  | nil => cases hd
  | cons e rest ih =>
    have hrest : ∀ d ∈ rest, d.1 ∈ (b.draw e.1 e.2).keys := fun d hd =>
      keys_draw b e.1 e.2 ▸ hkeys d (List.mem_cons_of_mem _ hd)
    rw [List.map_cons, List.nodup_cons] at hnodup
    rcases List.mem_cons.mp hd with rfl | hd
    · -- the key that is drawn first is not drawn again
      rcases ((h.draw d.1 d.2).evolves_drawAll hrest).origin _ hl with
        ⟨k, hk, _, _, hstretches⟩ | ⟨_, hlook, _⟩
      · obtain ⟨_, _, heq⟩ := (mem_slots_draw (hkeys d List.mem_cons_self)).mp hk
        rw [← hstretches hnodup.1]
        simp only [if_true] at heq
        rw [heq]
      · cases hlook
    · exact ih (h.draw e.1 e.2) hrest hnodup.2 hd hl

/-- Drawing one layer is drawing again. -/
theorem redraws_draw (b : Board) (key : String) (stretches : List Stretch) :
    Redraws b (b.draw key stretches) where
  handles := handles_draw b key stretches
  calls := by
    unfold draw
    split
    · exact ⟨[], rfl, by simp⟩
    · exact ⟨[_], rfl, by simp [Call.isSet]⟩

theorem redraws_drawAll (b : Board) (found : List (String × List Stretch)) :
    Redraws b (b.drawAll found) := by
  induction found generalizing b with
  | nil => exact Redraws.refl b
  | cons d rest ih => exact (redraws_draw b d.1 d.2).trans (ih _)

end draw

/-! ## Keys are removed -/

section erase

variable {b : Board} {key : String}

/-- Erasing a key takes away its layer and no other one. -/
theorem slots_erase (b : Board) (key : String) :
    (b.erase key).slots = b.slots.filter (·.1 != key) := by
  unfold erase
  split
  next hs =>
    refine (List.filter_eq_self.mpr fun s hs' => ?_).symm
    have hne := slot?_eq_none.mp hs
    simp only [bne_iff_ne, ne_eq]
    rintro rfl
    exact hne (mem_keys.mpr ⟨s.2, hs'⟩)
  · rfl

private theorem mem_slots_erase {s : String × Layer} :
    s ∈ (b.erase key).slots ↔ s ∈ b.slots ∧ s.1 ≠ key := by
  rw [slots_erase, List.mem_filter, bne_iff_ne]

/-- A board stays sound when layers go. -/
theorem Sound.erase (h : b.Sound) (key : String) : (b.erase key).Sound := by
  have hsub : (b.erase key).slots.Sublist b.slots := by
    rw [slots_erase]
    exact List.filter_sublist
  have hmade : (b.erase key).made = b.made := by unfold Board.erase; split <;> rfl
  exact ⟨(hsub.map _).nodup h.keys, (hsub.map _).nodup h.handles,
    fun s hs => hmade ▸ h.bound s (hsub.subset hs)⟩

/-- Erasing a layer empties it before it is disposed of. -/
theorem Sound.evolves_erase (h : b.Sound) (key : String) : Evolves [] [] b (b.erase key) := by
  cases hs : b.slot? key with
  | none =>
    simp only [Board.erase, hs]
    exact Evolves.refl _ b
  | some l =>
    have hl := mem_of_slot? hs
    have hcalls : (b.erase key).calls =
        [(b.host, .dispose l.handle), (b.host, .set l.handle [])] ++ b.calls := by
      simp [Board.erase, hs]
    have hmade : (b.erase key).made = b.made := by unfold Board.erase; split <;> rfl
    refine ⟨by unfold Board.erase; split <;> rfl, hmade ▸ Nat.le_refl _, ?_, _, hcalls, by simp,
      ?_, ?_⟩
    · intro s hs
      exact Or.inl ⟨s.2, (mem_slots_erase.mp hs).1, rfl, rfl, fun _ => rfl⟩
    · rintro handle ⟨ss, hss⟩
      simp only [List.mem_cons, Prod.mk.injEq, reduceCtorEq, and_false, Call.set.injEq, true_and,
        List.not_mem_nil, or_false, false_or] at hss
      rw [hss.1, hmade]
      exact h.bound _ hl
    · intro s hs
      obtain ⟨hmem, hne⟩ := mem_slots_erase.mp hs
      refine iff_of_false ?_ (by simp)
      -- the layer that is emptied is gone
      rintro ⟨ss, hss⟩
      simp only [List.mem_cons, Prod.mk.injEq, reduceCtorEq, and_false, Call.set.injEq, true_and,
        List.not_mem_nil, or_false, false_or] at hss
      exact hne (congrArg Prod.fst (h.key_unique hmem hl hss.1))

/-- Erasing a key leaves the handles, unless it calls for one to be disposed of. -/
theorem keeps_erase (b : Board) (key : String) : Keeps b (b.erase key) := by
  unfold erase
  split
  · exact Keeps.refl b
  · exact ⟨[_, _], rfl, fun hset => by simp [Call.isSet] at hset⟩

/-- Erasing layers empties each of them before it is disposed of. -/
theorem Sound.evolves_eraseAll (h : b.Sound) (keys : List String) :
    Evolves [] [] b (b.eraseAll keys) := by
  induction keys generalizing b with
  | nil => exact Evolves.refl _ b
  | cons key rest ih => exact (h.evolves_erase key).trans (ih (h.erase key)) (by simp)

theorem keeps_eraseAll (b : Board) (keys : List String) : Keeps b (b.eraseAll keys) := by
  induction keys generalizing b with
  | nil => exact Keeps.refl b
  | cons key rest ih => exact (keeps_erase b key).trans (ih _)

/-- Erasing keys takes away their layers and no others. -/
theorem mem_slots_eraseAll {keys : List String} {s : String × Layer} :
    s ∈ (b.eraseAll keys).slots ↔ s ∈ b.slots ∧ s.1 ∉ keys := by
  induction keys generalizing b with
  | nil => simp [Board.eraseAll]
  | cons key rest ih =>
    show s ∈ ((b.erase key).eraseAll rest).slots ↔ _
    rw [ih, mem_slots_erase, List.mem_cons, not_or, and_assoc]

theorem Sound.evolves_keepOnly (h : b.Sound) (keep : List String) :
    Evolves [] [] b (b.keepOnly keep) :=
  h.evolves_eraseAll _

theorem keeps_keepOnly (b : Board) (keep : List String) : Keeps b (b.keepOnly keep) :=
  keeps_eraseAll b _

/-- What is kept is what was there under the keys that are named. -/
theorem mem_slots_keepOnly {keep : List String} {s : String × Layer} :
    s ∈ (b.keepOnly keep).slots ↔ s ∈ b.slots ∧ s.1 ∈ keep := by
  rw [Board.keepOnly, mem_slots_eraseAll]
  refine and_congr_right fun hs => ?_
  have hkey : s.1 ∈ b.keys := mem_keys.mpr ⟨s.2, hs⟩
  simp [hkey]

theorem mem_keys_keepOnly {keep : List String} {key : String} :
    key ∈ (b.keepOnly keep).keys ↔ key ∈ b.keys ∧ key ∈ keep := by
  simp [mem_keys, mem_slots_keepOnly]

/-- Where all keys are named nothing is erased. -/
theorem keepOnly_of_subset {keep : List String} (h : ∀ key ∈ b.keys, key ∈ keep) :
    b.keepOnly keep = b := by
  have hnone : b.keys.filter (fun key => !keep.contains key) = [] := by
    rw [List.filter_eq_nil_iff]
    intro key hkey
    simp [h key hkey]
  rw [Board.keepOnly, hnone]
  rfl

end erase

end Board

end Conceal
