import Conceal.Fault
import Conceal.Json.Reader
import Mathlib.Data.List.Nodup

/-!
Objects in which no key comes twice. Reading a text gives such objects only, and giving a key a value
keeps them so; then the value of a key is the one that stands beside it. Main statement:
`proper_parse`.
-/

namespace Conceal

/-- In a list of pairs without a key twice, a key leads to what stands beside it. -/
theorem lookup_of_mem {α : Type} {found : List (String × α)} (h : (found.map (·.1)).Nodup)
    {k : String} {x : α} (hmem : (k, x) ∈ found) : found.lookup k = some x := by
  obtain ⟨before, rest, rfl⟩ := List.append_of_mem hmem
  refine List.lookup_eq_some_iff.mpr ⟨before, rest, rfl, fun d hd => ?_⟩
  rw [List.map_append, List.nodup_append] at h
  have hne := h.2.2 d.1 (List.mem_map_of_mem hd) k (by simp)
  exact bne_iff_ne.mpr (Ne.symm hne)

theorem mem_of_lookup {α : Type} {found : List (String × α)} {k : String} {x : α}
    (h : found.lookup k = some x) : (k, x) ∈ found := by
  obtain ⟨before, rest, rfl, _⟩ := List.lookup_eq_some_iff.mp h
  simp

theorem isSome_lookup {α : Type} {found : List (String × α)} {k : String} :
    (found.lookup k).isSome = true ↔ k ∈ found.map (·.1) := by
  induction found with
  | nil => simp
  | cons pair rest ih =>
    obtain ⟨k', x⟩ := pair
    by_cases h : k = k'
    · simp [h]
    · rw [List.lookup_cons, beq_eq_false_iff_ne.mpr h, List.map_cons, List.mem_cons, ih]
      simp [h]

namespace Json

/-! ## Members -/

/-- A value that is inserted is found; no other value changes. -/
theorem Members.get?_insert (members : Members) (key k : String) (value : Json) :
    (members.insert key value).get? k = if k = key then some value else members.get? k := by
  induction members with
  | nil =>
    rw [insert, get?, List.lookup_cons]
    by_cases h : k = key
    · simp [h]
    · simp [get?, h, beq_eq_false_iff_ne.mpr h]
  | cons member rest ih =>
    obtain ⟨k', old⟩ := member
    rw [insert]
    split
    next heq =>
      subst heq
      by_cases h : k = k'
      · simp [get?, h]
      · simp [get?, List.lookup_cons, h, beq_eq_false_iff_ne.mpr h]
    next hne =>
      by_cases h : k = k'
      · simp [get?, h, hne]
      · simpa [get?, List.lookup_cons, beq_eq_false_iff_ne.mpr h] using ih

/-- A value that is inserted may come from nowhere else. -/
theorem Members.mem_insert {members : Members} {key : String} {value : Json} {m : String × Json}
    (h : m ∈ members.insert key value) : m = (key, value) ∨ m ∈ members := by
  induction members with
  | nil => exact Or.inl (List.mem_singleton.mp h)
  | cons member rest ih =>
    obtain ⟨k, v⟩ := member
    rw [insert] at h
    split at h
    next heq =>
      subst heq
      rcases List.mem_cons.mp h with h | h
      · exact Or.inl h
      · exact Or.inr (List.mem_cons_of_mem _ h)
    · rcases List.mem_cons.mp h with rfl | h
      · exact Or.inr List.mem_cons_self
      · exact (ih h).imp_right (List.mem_cons_of_mem _)

/-- Writing a key twice does not give it twice. -/
theorem Members.nodup_insert {members : Members} (h : (members.map (·.1)).Nodup) (key : String)
    (value : Json) : ((members.insert key value).map (·.1)).Nodup := by
  induction members with
  | nil => exact List.nodup_singleton key
  | cons member rest ih =>
    obtain ⟨k, v⟩ := member
    rw [List.map_cons, List.nodup_cons] at h
    rw [insert]
    split
    · rw [List.map_cons, List.nodup_cons]
      exact h
    next hne =>
      rw [List.map_cons, List.nodup_cons]
      refine ⟨?_, ih h.2⟩
      intro hmem
      obtain ⟨m, hm, hk⟩ := List.mem_map.mp hmem
      rcases mem_insert hm with rfl | hm
      · exact hne hk.symm
      · exact h.1 (List.mem_map.mpr ⟨m, hm, hk⟩)

/-- A key that has the value already changes nothing. -/
theorem Members.insert_eq_self {members : Members} {key : String} {value : Json}
    (h : members.get? key = some value) : members.insert key value = members := by
  induction members with
  | nil => cases h
  | cons member rest ih =>
    obtain ⟨k, v⟩ := member
    rw [insert]
    by_cases hk : k = key
    · subst hk
      rw [if_pos rfl]
      simpa [get?] using h.symm
    · rw [if_neg hk, ih]
      rwa [get?, List.lookup_cons, beq_eq_false_iff_ne.mpr (Ne.symm hk)] at h

/-- Keys keep their places, and a new one comes last. -/
theorem Members.keys_insert (members : Members) (key : String) (value : Json) :
    members.map (·.1) <+: (members.insert key value).map (·.1) := by
  induction members with
  | nil => exact List.nil_prefix
  | cons member rest ih =>
    obtain ⟨k, v⟩ := member
    rw [insert]
    split
    · exact List.prefix_refl _
    · exact (List.prefix_cons_inj k).mpr ih

theorem Members.insertAll_cons (members : Members) (key : String) (value : Json)
    (rest : List (String × Json)) :
    members.insertAll ((key, value) :: rest) = (members.insert key value).insertAll rest := rfl

/-- A key keeps its place when it is written again, and new ones come last. -/
theorem Members.keys_insertAll (members : Members) (more : List (String × Json)) :
    members.map (·.1) <+: (members.insertAll more).map (·.1) := by
  induction more generalizing members with
  | nil => exact List.prefix_refl _
  | cons m rest ih => exact (members.keys_insert m.1 m.2).trans (ih _)

/-- Values that the keys have already change nothing. -/
theorem Members.insertAll_of_get? {members : Members} {more : List (String × Json)}
    (h : ∀ m ∈ more, members.get? m.1 = some m.2) : members.insertAll more = members := by
  induction more with
  | nil => rfl
  | cons m rest ih =>
    obtain ⟨hm, hrest⟩ := List.forall_mem_cons.mp h
    rw [insertAll_cons, insert_eq_self hm, ih hrest]

/-- A key is found with the new value if there is one, and with the old value else. -/
theorem Members.get?_insertAll (members : Members) {more : List (String × Json)}
    (hmore : (more.map (·.1)).Nodup) (key : String) :
    (members.insertAll more).get? key = (more.lookup key).or (members.get? key) := by
  induction more generalizing members with
  | nil => rfl
  | cons m rest ih =>
    obtain ⟨k, v⟩ := m
    rw [List.map_cons, List.nodup_cons] at hmore
    rw [insertAll_cons, ih _ hmore.2, get?_insert]
    by_cases hk : key = k
    · -- the key does not come again
      subst hk
      have hnone : rest.lookup key = none := by
        rw [← Option.not_isSome_iff_eq_none, isSome_lookup]
        exact hmore.1
      simp [hnone]
    · rw [if_neg hk, List.lookup_cons, beq_eq_false_iff_ne.mpr hk]

/-- What comes first is left alone if no value is given for it. -/
theorem Members.insertAll_of_notMem {key : String} {more : List (String × Json)}
    (h : key ∉ more.map (·.1)) (value : Json) (members : Members) :
    Members.insertAll ((key, value) :: members) more = (key, value) :: members.insertAll more := by
  induction more generalizing members with
  | nil => rfl
  | cons m rest ih =>
    obtain ⟨k, v⟩ := m
    obtain ⟨hk, hrest⟩ := not_or.mp (mt List.mem_cons.mpr h)
    have hinsert : Members.insert ((key, value) :: members) k v =
        (key, value) :: members.insert k v := if_neg hk
    rw [insertAll_cons, insertAll_cons, hinsert, ih hrest]

/-- Values for all keys in their places, and then for other ones, are all that is left. -/
theorem Members.insertAll_eq_self {members : Members} {more : List (String × Json)}
    (hkeys : members.map (·.1) <+: more.map (·.1)) (hmore : (more.map (·.1)).Nodup) :
    members.insertAll more = more := by
  induction more generalizing members with
  | nil =>
    rw [List.map_nil, List.prefix_nil, List.map_eq_nil_iff] at hkeys
    rw [hkeys]
    rfl
  | cons m rest ih =>
    obtain ⟨k, v⟩ := m
    rw [List.map_cons, List.nodup_cons] at hmore
    have hfirst : ∃ old, members.insert k v = (k, v) :: old ∧
        old.map (·.1) <+: rest.map (·.1) := by
      cases members with
      | nil => exact ⟨[], rfl, List.nil_prefix⟩
      | cons m old =>
        obtain ⟨k', v'⟩ := m
        obtain ⟨rfl, hold⟩ : k' = k ∧ old.map (·.1) <+: rest.map (·.1) := by
          simpa [List.cons_prefix_cons] using hkeys
        exact ⟨old, if_pos rfl, hold⟩
    obtain ⟨old, hinsert, hold⟩ := hfirst
    rw [insertAll_cons, hinsert, insertAll_of_notMem hmore.1, ih hold hmore.2]

/-! ## Values -/

/-- A value in which no object has a key twice. -/
inductive Proper : Json → Prop
  | null : Proper .null
  | bool (b : Bool) : Proper (.bool b)
  | int (i : Int) : Proper (.int i)
  | float (x : Float) : Proper (.float x)
  | str (s : String) : Proper (.str s)
  | arr {items : List Json} (h : ∀ v ∈ items, Proper v) : Proper (.arr items)
  | obj {members : Members} (hkeys : (members.map (·.1)).Nodup) (h : ∀ m ∈ members, Proper m.2) :
      Proper (.obj members)

theorem proper_arr {items : List Json} : (arr items).Proper ↔ ∀ v ∈ items, v.Proper :=
  ⟨fun h => by cases h with | arr h => exact h, .arr⟩

/-- A section is proper if its keys are distinct and its values proper. -/
theorem proper_obj {members : Members} :
    (obj members).Proper ↔ (members.map (·.1)).Nodup ∧ ∀ m ∈ members, m.2.Proper :=
  ⟨fun h => by cases h with | obj hkeys h => exact ⟨hkeys, h⟩, fun h => .obj h.1 h.2⟩

theorem proper_nil : (obj []).Proper := by
  rw [proper_obj]
  exact ⟨List.nodup_nil, by simp⟩

/-- The value of a key is proper, and so is the null that stands for a missing one. -/
theorem Proper.get {members : Members} (h : (Json.obj members).Proper) (key : String) :
    (members.get key).Proper := by
  unfold Members.get Members.get?
  cases hfound : members.lookup key with
  | none => exact .null
  | some v => exact (proper_obj.mp h).2 _ (mem_of_lookup hfound)

/-- A section stays proper when a key is written. -/
theorem Proper.insert {members : Members} (h : (Json.obj members).Proper) {value : Json}
    (hvalue : value.Proper) (key : String) : (Json.obj (members.insert key value)).Proper := by
  obtain ⟨hkeys, hmembers⟩ := proper_obj.mp h
  refine .obj (Members.nodup_insert hkeys key value) ?_
  intro m hm
  rcases Members.mem_insert hm with rfl | hm
  · exact hvalue
  · exact hmembers m hm

/-- A section stays proper when several keys are written. -/
theorem Proper.insertAll {members : Members} (h : (Json.obj members).Proper)
    {more : List (String × Json)} (hmore : ∀ m ∈ more, m.2.Proper) :
    (Json.obj (members.insertAll more)).Proper := by
  induction more generalizing members with
  | nil => exact h
  | cons m rest ih =>
    refine ih (h.insert (hmore m List.mem_cons_self) m.1) ?_
    intro n hn
    exact hmore n (List.mem_cons_of_mem _ hn)

theorem proper_ofMembers {members : List (String × Json)} (h : ∀ m ∈ members, m.2.Proper) :
    (ofMembers members).Proper :=
  Proper.insertAll proper_nil h

/-! ## Reading -/

/-- A number is proper, whichever kind is read. -/
private theorem proper_number {negative : Bool} {cs rest : List Char} {v : Json}
    (h : Reader.number negative cs = .ok (v, rest)) : v.Proper := by
  unfold Reader.number at h
  split at h
  · cases h
  · dsimp only at h
    split at h
    · split at h
      · cases h
      · cases h
        exact .int _
    · cases h
      exact .float _

/-- What the three readers give, with so much fuel, has no key twice. -/
theorem proper_readers (fuel : Nat) :
    (∀ cs v rest, Reader.value fuel cs = .ok (v, rest) → v.Proper) ∧
    (∀ acc cs v rest, (∀ v ∈ acc, v.Proper) → Reader.items fuel acc cs = .ok (v, rest) →
      v.Proper) ∧
    (∀ acc cs v rest, (∀ m ∈ acc, m.2.Proper) → Reader.members fuel acc cs = .ok (v, rest) →
      v.Proper) := by
  -- the readers call one another, each time with less fuel
  induction fuel with
  | zero =>
    refine ⟨?_, ?_, ?_⟩ <;> intros <;> rename_i h <;> cases h
  | succ fuel ih =>
    obtain ⟨hvalue, hitems, hmembers⟩ := ih
    refine ⟨?_, ?_, ?_⟩
    · intro cs v rest h
      unfold Reader.value at h
      -- a text, an object and a list first; what is left are words and numbers
      split at h
      case h_1 =>
        obtain ⟨⟨s, tail⟩, _, h⟩ := bind_eq_ok.mp h
        cases h
        exact .str s
      case h_2 =>
        split at h
        · cases h
          exact proper_nil
        · exact hmembers _ _ _ _ (by simp) h
      case h_3 =>
        split at h
        · cases h
          exact .arr (by simp)
        · exact hitems _ _ _ _ (by simp) h
      case h_10 => exact proper_number h
      case h_11 => exact proper_number h
      all_goals
        cases h
        constructor
    · intro acc cs v rest hacc h
      unfold Reader.items at h
      obtain ⟨⟨item, tail⟩, hitem, h⟩ := bind_eq_ok.mp h
      have hall : ∀ v ∈ item :: acc, v.Proper := by
        intro v hv
        rcases List.mem_cons.mp hv with rfl | hv
        · exact hvalue _ _ _ hitem
        · exact hacc v hv
      dsimp only at h
      split at h
      · cases h
        exact .arr fun v hv => hall v (List.mem_reverse.mp hv)
      · exact hitems _ _ _ _ hall h
      · cases h
    · intro acc cs v rest hacc h
      unfold Reader.members at h
      split at h
      · obtain ⟨⟨key, afterKey⟩, _, h⟩ := bind_eq_ok.mp h
        dsimp only at h
        split at h
        · obtain ⟨⟨item, tail⟩, hitem, h⟩ := bind_eq_ok.mp h
          have hall : ∀ m ∈ (key, item) :: acc, m.2.Proper := by
            intro m hm
            rcases List.mem_cons.mp hm with rfl | hm
            · exact hvalue _ _ _ hitem
            · exact hacc m hm
          dsimp only at h
          split at h
          · cases h
            exact proper_ofMembers fun m hm => hall m (List.mem_reverse.mp hm)
          · exact hmembers _ _ _ _ hall h
          · cases h
        · cases h
      · cases h

/-- No object in a value that is read has a key twice. -/
theorem proper_parse {s : String} {v : Json} (h : parse s = .ok v) : v.Proper := by
  obtain ⟨⟨found, rest⟩, hfound, h⟩ := bind_eq_ok.mp h
  dsimp only at h
  split at h
  · cases h
    exact (proper_readers _).1 _ _ _ hfound
  · cases h

end Json

end Conceal
