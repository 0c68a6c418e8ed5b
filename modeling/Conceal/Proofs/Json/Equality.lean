import Conceal.Proofs.Json.Keys
import Mathlib.Data.List.Perm.Subperm

/-!
When two values are equal. They are compared place by place, and the comparison of numbers is left
open: `same` goes by their value alone, and a truth value counts as one or zero. What `same` does not
tell apart is the kind of a number. Main statements: `same_iff` and `equal_iff`.
-/

namespace Conceal.Json

/-- Two values are alike but for their numbers, and the numbers at every place are related. Truth
values count as numbers; objects are alike whatever the order of their keys. -/
inductive Agree (numbers : Json → Json → Prop) : Json → Json → Prop
  | null : Agree numbers .null .null
  | str (s : String) : Agree numbers (.str s) (.str s)
  | number {a b : Json} (ha : a.number?.isSome) (hb : b.number?.isSome) (h : numbers a b) :
      Agree numbers a b
  | arr {as bs : List Json} (hlength : as.length = bs.length)
      (h : ∀ p ∈ as.zip bs, Agree numbers p.1 p.2) : Agree numbers (.arr as) (.arr bs)
  | obj {as bs : Members} (hkeys : ∀ key, (as.get? key).isSome = (bs.get? key).isSome)
      (h : ∀ key a b, as.get? key = some a → bs.get? key = some b → Agree numbers a b) :
      Agree numbers (.obj as) (.obj bs)

/-- Numbers of the same value, whatever their kind. -/
def SameValue (a b : Json) : Prop :=
  ∃ x y, a.number? = some x ∧ b.number? = some y ∧ sameNumber x y = true

/-- Values of the same kind. -/
def SameKind (a b : Json) : Prop := a.kindName = b.kindName

/-- Equal values, to which truth values, whole numbers and floats are never equal to one another. -/
def Equal : Json → Json → Prop := Agree fun a b => SameKind a b ∧ SameValue a b

/-- Nothing but the kinds of some numbers differs. -/
def DiffersInKind (a b : Json) : Prop := Agree SameValue a b ∧ ¬ Agree SameKind a b

variable {a b : Json} {R R' : Json → Json → Prop}

/-! ## Agreement -/

/-- Values that agree up to one relation agree up to each wider one. -/
theorem Agree.mono (h : Agree R a b) (hR : ∀ x y, R x y → R' x y) : Agree R' a b := by
  induction h with
  | null => exact .null
  | str s => exact .str s
  | number ha hb h => exact .number ha hb (hR _ _ h)
  | arr hlength _ ih => exact .arr hlength ih
  | obj hkeys _ ih => exact .obj hkeys ih

/-- Two ways to relate the numbers can be looked at one after the other. -/
private theorem agree_and : Agree (fun x y => R x y ∧ R' x y) a b ↔ Agree R a b ∧ Agree R' a b := by
  constructor
  · intro h
    exact ⟨h.mono fun _ _ hxy => hxy.1, h.mono fun _ _ hxy => hxy.2⟩
  · rintro ⟨h, h'⟩
    induction h with
    | null => exact .null
    | str s => exact .str s
    | number ha hb h =>
      -- a number agrees in no other way than as a number
      cases h' with
      | number _ _ h' => exact .number ha hb ⟨h, h'⟩
      | null => cases ha
      | str s => cases ha
      | arr => cases ha
      | obj => cases ha
    | arr hlength _ ih =>
      cases h' with
      | number ha _ _ => cases ha
      | arr _ h' => exact .arr hlength fun p hp => ih p hp (h' p hp)
    | obj hkeys _ ih =>
      cases h' with
      | number ha _ _ => cases ha
      | obj _ h' => exact .obj hkeys fun key x y hx hy => ih key x y hx hy (h' key x y hx hy)

/-- A value with distinct keys agrees with itself, as far as its numbers do. -/
theorem Proper.agree_refl (ha : a.Proper) (hR : ∀ x, x.number?.isSome → R x x) : Agree R a a := by
  induction ha with
  | null => exact .null
  | str s => exact .str s
  | bool b => exact .number rfl rfl (hR _ rfl)
  | int i => exact .number rfl rfl (hR _ rfl)
  | float x => exact .number rfl rfl (hR _ rfl)
  | @arr items _ ih =>
    refine .arr rfl ?_
    intro p hp
    have hzip : items.zip items = items.map fun x => (x, x) := by
      simpa using List.zip_map' (f := id) (g := id) (l := items)
    rw [hzip] at hp
    obtain ⟨x, hx, rfl⟩ := List.mem_map.mp hp
    exact ih x hx
  | obj _ _ ih =>
    refine .obj (fun _ => rfl) ?_
    intro key x y hx hy
    cases hx.symm.trans hy
    exact ih _ (mem_of_lookup hx)

/-! ## Numbers -/

/-- A number equals itself, what is not a number too, as the same object does. -/
theorem sameNumber_refl (x : Int ⊕ Float) : sameNumber x x = true := by
  cases x with
  | inl i => exact beq_self_eq_true i
  | inr x =>
    show (Number.Exact.ofFloat x).same (Number.Exact.ofFloat x) = true
    cases Number.Exact.ofFloat x with
    | nan => rfl
    | infinite negative => exact beq_self_eq_true negative
    | finite negative m q => exact beq_self_eq_true _

/-- Two values of which one is a number are the same exactly when they are numbers of one value. -/
theorem same_of_number (ha : a.number?.isSome) : a.same b = true ↔ SameValue a b := by
  cases a <;> cases ha <;> cases b <;> simp [same, SameValue, number?]

theorem agree_of_same_number (ha : a.number?.isSome) (h : a.same b = true) :
    Agree SameValue a b := by
  obtain ⟨x, y, hx, hy, hsame⟩ := (same_of_number ha).mp h
  exact .number ha (by rw [hy]; rfl) ⟨x, y, hx, hy, hsame⟩

/-! ## Comparison -/

theorem sameItems_iff {as bs : List Json} : sameItems as bs = true ↔
    as.length = bs.length ∧ ∀ p ∈ as.zip bs, p.1.same p.2 = true := by
  induction as generalizing bs with
  | nil => cases bs <;> simp [sameItems]
  | cons a as ih =>
    cases bs with
    | nil => simp [sameItems]
    | cons b bs =>
      simp only [sameItems, Bool.and_eq_true, ih, List.length_cons, List.zip_cons_cons,
        List.forall_mem_cons, Nat.add_right_cancel_iff]
      exact and_left_comm

/-- Sections are compared by their keys, in whatever order these stand. -/
theorem sameMembers_iff {as bs : Members} : sameMembers as bs = true ↔
    ∀ m ∈ as, ∃ b, bs.get? m.1 = some b ∧ m.2.same b = true := by
  induction as with
  | nil => simp [sameMembers]
  | cons m rest ih =>
    obtain ⟨key, a⟩ := m
    rw [sameMembers, Bool.and_eq_true, ih, List.forall_mem_cons]
    refine and_congr_left fun _ => ?_
    cases h : bs.lookup key with
    | none => simp [Members.get?, h]
    | some b => simp [Members.get?, h]

theorem isSome_get? {members : Members} {key : String} :
    (members.get? key).isSome = true ↔ key ∈ members.map (·.1) :=
  isSome_lookup

/-- Objects without a key twice are the same when they have the same keys, and for each of them the
same value. -/
theorem same_obj_iff {as bs : Members} (has : (as.map (·.1)).Nodup) (hbs : (bs.map (·.1)).Nodup) :
    (obj as).same (.obj bs) = true ↔
      (∀ key, (as.get? key).isSome = (bs.get? key).isSome) ∧
      ∀ key a b, as.get? key = some a → bs.get? key = some b → a.same b = true := by
  rw [same, Bool.and_eq_true, beq_iff_eq, sameMembers_iff]
  constructor
  · rintro ⟨hlength, hmembers⟩
    have hsub : as.map (·.1) ⊆ bs.map (·.1) := by
      intro key hkey
      obtain ⟨m, hm, rfl⟩ := List.mem_map.mp hkey
      obtain ⟨b, hb, _⟩ := hmembers m hm
      exact List.mem_map.mpr ⟨(m.1, b), mem_of_lookup hb, rfl⟩
    -- as many keys, none of them twice, so there are no others
    have hperm : (as.map (·.1)).Perm (bs.map (·.1)) :=
      (has.subperm hsub).perm_of_length_le (by simp [hlength])
    refine ⟨?_, ?_⟩
    · intro key
      rw [Bool.eq_iff_iff, isSome_get?, isSome_get?]
      exact hperm.mem_iff
    · intro key a b ha hb
      obtain ⟨b', hb', hsame⟩ := hmembers (key, a) (mem_of_lookup ha)
      cases hb.symm.trans hb'
      exact hsame
  · rintro ⟨hkeys, hvalues⟩
    have hperm : (as.map (·.1)).Perm (bs.map (·.1)) := by
      rw [List.perm_ext_iff_of_nodup has hbs]
      intro key
      rw [← isSome_get?, ← isSome_get?, hkeys key]
    refine ⟨by simpa using hperm.length_eq, ?_⟩
    rintro ⟨key, a⟩ hm
    have ha : as.get? key = some a := lookup_of_mem has hm
    have hsome : (bs.get? key).isSome = true := by rw [← hkeys key, ha, Option.isSome_some]
    obtain ⟨b, hb⟩ := Option.isSome_iff_exists.mp hsome
    exact ⟨b, hb, hvalues key a b ha hb⟩

/-- Values that compare as equal agree in all but the kind of a number. -/
theorem agree_of_same (ha : a.Proper) (hb : b.Proper) (h : a.same b = true) :
    Agree SameValue a b := by
  induction ha generalizing b with
  | null =>
    cases b with
    | null => exact .null
    | _ => simp [same, number?] at h
  | str s =>
    cases b with
    | str t =>
      rw [same, beq_iff_eq] at h
      rw [h]
      exact .str t
    | _ => simp [same, number?] at h
  | bool x => exact agree_of_same_number rfl h
  | int i => exact agree_of_same_number rfl h
  | float x => exact agree_of_same_number rfl h
  | arr _ ih =>
    cases b with
    | arr bs =>
      rw [same, sameItems_iff] at h
      refine .arr h.1 ?_
      intro p hp
      -- pairs of items are proper since both lists are
      exact ih p.1 (List.of_mem_zip hp).1 (proper_arr.mp hb p.2 (List.of_mem_zip hp).2) (h.2 p hp)
    | _ => simp [same, number?] at h
  | obj hkeys _ ih =>
    cases b with
    | obj bs =>
      obtain ⟨hkeys', hbs⟩ := proper_obj.mp hb
      obtain ⟨hsame, hvalues⟩ := (same_obj_iff hkeys hkeys').mp h
      refine .obj hsame ?_
      intro key x y hx hy
      exact ih _ (mem_of_lookup hx) (hbs _ (mem_of_lookup hy)) (hvalues key x y hx hy)
    | _ => simp [same, number?] at h

/-- Values that agree in all but the kind of a number compare as equal. -/
theorem same_of_agree (ha : a.Proper) (hb : b.Proper) (h : Agree SameValue a b) :
    a.same b = true := by
  induction h with
  | null => rfl
  | str s => exact beq_self_eq_true s
  | number hnumber _ h => exact (same_of_number hnumber).mpr h
  | arr hlength _ ih =>
    rw [same, sameItems_iff]
    refine ⟨hlength, ?_⟩
    intro p hp
    exact ih p hp (proper_arr.mp ha p.1 (List.of_mem_zip hp).1)
      (proper_arr.mp hb p.2 (List.of_mem_zip hp).2)
  | obj hkeys _ ih =>
    obtain ⟨hkeysa, has⟩ := proper_obj.mp ha
    obtain ⟨hkeysb, hbs⟩ := proper_obj.mp hb
    refine (same_obj_iff hkeysa hkeysb).mpr ⟨hkeys, ?_⟩
    intro key x y hx hy
    exact ih key x y hx hy (has _ (mem_of_lookup hx)) (hbs _ (mem_of_lookup hy))

/-- Values are the same when their numbers have the same values, whatever the kinds of these. -/
theorem same_iff (ha : a.Proper) (hb : b.Proper) : a.same b = true ↔ Agree SameValue a b :=
  ⟨agree_of_same ha hb, same_of_agree ha hb⟩

/-- Values are equal when they are the same and their numbers are of the same kinds. -/
theorem equal_iff : Equal a b ↔ Agree SameKind a b ∧ Agree SameValue a b := agree_and

theorem equal_iff_of_sameValue (h : Agree SameValue a b) : Equal a b ↔ ¬ DiffersInKind a b := by
  rw [equal_iff, and_iff_left h, DiffersInKind, and_iff_right h, not_not]

theorem Proper.equal_refl (ha : a.Proper) : Equal a a := by
  refine ha.agree_refl ?_
  intro x hx
  obtain ⟨n, hn⟩ := Option.isSome_iff_exists.mp hx
  exact ⟨rfl, n, n, hn, hn, sameNumber_refl n⟩

/-! ## Places -/

/-- The value at the end of a way that leads into objects by keys and into lists by places. -/
def at? : Json → List (String ⊕ Nat) → Option Json
  | value, [] => some value
  | .obj members, .inl key :: way =>
    match Members.get? members key with
    | some value => at? value way
    | none => none
  | .arr items, .inr i :: way =>
    match items[i]? with
    | some value => at? value way
    | none => none
  | _, _ :: _ => none

/-- Values that agree do so at every place. -/
theorem Agree.at? {way : List (String ⊕ Nat)} {x y : Json} (h : Agree R a b)
    (hx : a.at? way = some x) (hy : b.at? way = some y) : Agree R x y := by
  induction way generalizing a b with
  | nil =>
    rw [Json.at?, Option.some.injEq] at hx hy
    rwa [← hx, ← hy]
  | cons step way ih =>
    cases h with
    | null => cases step <;> cases hx
    | str s => cases step <;> cases hx
    | number ha _ _ => cases a <;> cases ha <;> cases step <;> cases hx
    | arr _ h =>
      cases step with
      | inl key => cases hx
      | inr i =>
        rw [Json.at?] at hx hy
        split at hx
        next u hu =>
          split at hy
          next v hv =>
            exact ih (h (u, v) (List.mem_of_getElem? (List.getElem?_zip_eq_some.mpr ⟨hu, hv⟩)))
              hx hy
          · cases hy
        · cases hx
    | obj _ h =>
      cases step with
      | inr i => cases hx
      | inl key =>
        rw [Json.at?] at hx hy
        split at hx
        next u hu =>
          split at hy
          next v hv => exact ih (h key u v hu hv) hx hy
          · cases hy
        · cases hx

/-- Equal values are of the same kind at every place. -/
theorem Equal.kind_at? {way : List (String ⊕ Nat)} {x y : Json} (h : Equal a b)
    (hx : a.at? way = some x) (hy : b.at? way = some y) : x.kindName = y.kindName := by
  cases h.at? hx hy with
  | number _ _ h => exact h.1
  | _ => rfl

end Conceal.Json
