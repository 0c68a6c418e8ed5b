import Mathlib.Data.List.Infix
import Mathlib.Data.List.Nodup
import Mathlib.Data.List.Perm.Subperm
import Mathlib.Logic.Relation

/-!
Going through keys that refer to each other. Keys are discovered depth first, each once. A walk that
is stopped where it meets a link that it is still inside of is stopped exactly if, of the keys of
some circle of references, the one that is discovered first is a link. Main statement:
`Walk.stopped_iff`.
-/

namespace Conceal

namespace Grammar

open Relation (TransGen ReflTransGen)

/-- The keys that are discovered, in order, where the keys of a list are gone through one by one and
what a new key refers to comes right after it. -/
inductive Discovers (refs : String → List String) :
    List String → List String → List String → Prop
  | nil {seen : List String} : Discovers refs seen [] seen
  | old {key : String} {seen rest seen' : List String} (hseen : key ∈ seen)
      (hrest : Discovers refs seen rest seen') : Discovers refs seen (key :: rest) seen'
  | new {key : String} {seen mid rest seen' : List String} (hnew : key ∉ seen)
      (hinner : Discovers refs (seen ++ [key]) (refs key) mid)
      (hrest : Discovers refs mid rest seen') : Discovers refs seen (key :: rest) seen'

/-- A reference to a key that is not among those discovered before. -/
def Onward (refs : String → List String) (before : List String) (x y : String) : Prop :=
  y ∈ refs x ∧ y ∉ before

/-- Of the keys of some circle of references, the one that is discovered first is a link. -/
def Circles (refs : String → List String) (link : String → Prop) (order : List String) : Prop :=
  ∃ before key, before ++ [key] <+: order ∧ link key ∧ TransGen (Onward refs before) key key

/-- A walk through keys: `around` holds the keys that it is inside of, and `seen` those that it has
discovered. It gives the keys discovered in the end, or is stopped at a link that it is inside of. -/
inductive Walk (refs : String → List String) (link : String → Prop) :
    List String → List String → List String → Option (List String) → Prop
  | nil {around seen : List String} : Walk refs link around seen [] (some seen)
  | old {key : String} {around seen rest : List String} {found : Option (List String)}
      (hseen : key ∈ seen) (hfree : ¬ (key ∈ around ∧ link key))
      (hrest : Walk refs link around seen rest found) :
      Walk refs link around seen (key :: rest) found
  | new {key : String} {around seen mid rest : List String} {found : Option (List String)}
      (hnew : key ∉ seen)
      (hinner : Walk refs link (key :: around) (seen ++ [key]) (refs key) (some mid))
      (hrest : Walk refs link around mid rest found) :
      Walk refs link around seen (key :: rest) found
  | stopped {key : String} {around seen rest : List String} (haround : key ∈ around)
      (hlink : link key) : Walk refs link around seen (key :: rest) none
  | inner {key : String} {around seen rest : List String} (hnew : key ∉ seen)
      (hinner : Walk refs link (key :: around) (seen ++ [key]) (refs key) none) :
      Walk refs link around seen (key :: rest) none

variable {refs : String → List String} {link : String → Prop}
  {around seen seen' mid todo more before : List String} {found : Option (List String)}
  {key x y : String}

/-! ## Discovering keys -/

namespace Discovers

/-- What is discovered stays discovered, in its order. -/
theorem grows (h : Discovers refs seen todo seen') : seen <+: seen' := by
  induction h with
  | nil => exact List.prefix_refl _
  | old _ _ ih => exact ih
  | new _ _ _ ihinner ihrest => exact ((List.prefix_append _ _).trans ihinner).trans ihrest

/-- There is one order of discovery. -/
theorem unique (h : Discovers refs seen todo seen') {other : List String}
    (h' : Discovers refs seen todo other) : seen' = other := by
  induction h generalizing other with
  | nil =>
    cases h'
    rfl
  | old hseen _ ih =>
    cases h' with
    | old _ hrest => exact ih hrest
    | new hnew _ _ => exact absurd hseen hnew
  | new hnew _ _ ihinner ihrest =>
    cases h' with
    | old hseen _ => exact absurd hseen hnew
    | new _ hinner hrest =>
      cases ihinner hinner
      exact ihrest hrest

/-- All keys that are gone through are discovered, and all that a new key refers to. -/
theorem closed (h : Discovers refs seen todo seen') :
    todo ⊆ seen' ∧ ∀ x ∈ seen', x ∉ seen → refs x ⊆ seen' := by
  induction h with
  | nil => exact ⟨List.nil_subset _, fun x hx hnew => absurd hx hnew⟩
  | old hseen hrest ih =>
    exact ⟨List.cons_subset.mpr ⟨hrest.grows.subset hseen, ih.1⟩, ih.2⟩
  | @new key seen mid rest seen' hnew hinner hrest ihinner ihrest =>
    have hmid : mid ⊆ seen' := hrest.grows.subset
    have hkey : key ∈ mid := hinner.grows.subset (by simp)
    refine ⟨List.cons_subset.mpr ⟨hmid hkey, ihrest.1⟩, ?_⟩
    intro x hx hxnew
    by_cases hxmid : x ∈ mid
    · by_cases hxkey : x = key
      · rw [hxkey]
        exact List.Subset.trans ihinner.1 hmid
      · exact List.Subset.trans (ihinner.2 x hxmid (by simp [hxnew, hxkey])) hmid
    · exact ihrest.2 x hx hxmid

/-- What is discovered can be reached from what is gone through. -/
theorem reached (h : Discovers refs seen todo seen') (hx : x ∈ seen') :
    x ∈ seen ∨ ∃ key ∈ todo, ReflTransGen (fun x y => y ∈ refs x) key x := by
  induction h with
  | nil => exact Or.inl hx
  | old _ _ ih =>
    rcases ih hx with hold | ⟨key, hkey, hreach⟩
    · exact Or.inl hold
    · exact Or.inr ⟨key, List.mem_cons_of_mem _ hkey, hreach⟩
  | new _ _ _ ihinner ihrest =>
    rcases ihrest hx with hmid | ⟨key, hkey, hreach⟩
    · rcases ihinner hmid with hold | ⟨key, hkey, hreach⟩
      · rcases List.mem_append.mp hold with hold | hold
        · exact Or.inl hold
        · rw [List.mem_singleton.mp hold]
          exact Or.inr ⟨_, List.mem_cons_self, .refl⟩
      · exact Or.inr ⟨_, List.mem_cons_self, .head hkey hreach⟩
    · exact Or.inr ⟨key, List.mem_cons_of_mem _ hkey, hreach⟩

/-- All that can be reached is discovered. -/
theorem complete (h : Discovers refs [] todo seen') (hkey : key ∈ todo)
    (hreach : ReflTransGen (fun x y => y ∈ refs x) key x) : x ∈ seen' := by
  obtain ⟨htodo, hrefs⟩ := h.closed
  induction hreach with
  | refl => exact htodo hkey
  | tail _ hstep ih => exact hrefs _ ih (List.not_mem_nil) hstep

/-- From a new key no reference onward leads out of what is discovered inside it. -/
theorem onward (h : Discovers refs (seen ++ [key]) (refs key) mid)
    (hreach : TransGen (Onward refs seen) key y) : y ∈ mid ∧ y ∉ seen := by
  induction hreach with
  | single hstep => exact ⟨h.closed.1 hstep.1, hstep.2⟩
  | @tail x y _ hstep ih =>
    refine ⟨?_, hstep.2⟩
    by_cases hx : x = key
    · rw [hx] at hstep
      exact h.closed.1 hstep.1
    · exact h.closed.2 x ih.1 (by simp [ih.2, hx]) hstep.1

end Discovers

/-- Finitely many keys that refer to each other only are all discovered in the end. -/
theorem exists_discovers {keys : List String} (hkeys : ∀ x ∈ keys, refs x ⊆ keys)
    (hseen : seen.Nodup) (hsub : seen ⊆ keys) (htodo : todo ⊆ keys) :
    ∃ seen', Discovers refs seen todo seen' ∧ seen'.Nodup ∧ seen' ⊆ keys := by
  -- on the number of keys that are left, and for each number along the list
  induction hn : keys.length - seen.length using Nat.strong_induction_on generalizing seen todo with
  | _ n ih =>
    induction todo with
    | nil => exact ⟨seen, .nil, hseen, hsub⟩
    | cons key rest ihrest =>
      obtain ⟨hkey, hrest⟩ := List.cons_subset.mp htodo
      by_cases hold : key ∈ seen
      · obtain ⟨seen', hdiscovers, hseen'⟩ := ihrest hrest
        exact ⟨seen', .old hold hdiscovers, hseen'⟩
      · have hnodup : (seen ++ [key]).Nodup := by
          rw [← List.concat_eq_append]
          exact hseen.concat hold
        have hmore : seen ++ [key] ⊆ keys :=
          List.append_subset.mpr ⟨hsub, List.cons_subset.mpr ⟨hkey, List.nil_subset _⟩⟩
        have hlength := (hnodup.subperm hmore).length_le
        rw [List.length_append, List.length_singleton] at hlength
        obtain ⟨mid, hinner, hmid, hmidsub⟩ :=
          ih _ (by simp; omega) hnodup hmore (hkeys key hkey) rfl
        have hgrown := hinner.grows.length_le
        rw [List.length_append, List.length_singleton] at hgrown
        obtain ⟨seen', hdiscovers, hseen'⟩ := ih _ (by omega) hmid hmidsub hrest rfl
        exact ⟨seen', .new hold hinner hdiscovers, hseen'⟩

/-! ## Walks -/

namespace Walk

/-- A walk that is not stopped discovers the keys in their order. -/
theorem discovers (h : Walk refs link around seen todo found) (hfound : found = some seen') :
    Discovers refs seen todo seen' := by
  induction h generalizing seen' with
  | nil =>
    cases hfound
    exact .nil
  | old hseen _ _ ih => exact .old hseen (ih hfound)
  | new hnew _ _ ihinner ihrest => exact .new hnew (ihinner rfl) (ihrest hfound)
  | stopped _ _ => cases hfound
  | inner _ _ _ => cases hfound

/-- A list is gone through in two parts. -/
theorem append {first : Option (List String)} (h : Walk refs link around seen todo first)
    (hfirst : first = some mid) (hmore : Walk refs link around mid more found) :
    Walk refs link around seen (todo ++ more) found := by
  induction h with
  | nil =>
    cases hfirst
    exact hmore
  | old hseen hfree _ ih => exact .old hseen hfree (ih hfirst hmore)
  | new hnew hinner _ _ ihrest => exact .new hnew hinner (ihrest hfirst hmore)
  | stopped _ _ => cases hfirst
  | inner _ _ _ => cases hfirst

/-- What comes after the key that stops a walk does not matter. -/
theorem append_stopped (h : Walk refs link around seen todo found) (hfound : found = none)
    (more : List String) : Walk refs link around seen (todo ++ more) none := by
  induction h with
  | nil => cases hfound
  | old hseen hfree _ ih => exact .old hseen hfree (ih hfound)
  | new hnew hinner _ _ ihrest => exact .new hnew hinner (ihrest hfound)
  | stopped haround hlink => exact .stopped haround hlink
  | inner hnew hinner _ => exact .inner hnew hinner

/-- A walk that is not stopped meets no link that it is inside of. -/
theorem free (h : Walk refs link around seen todo found) (hfound : found = some seen')
    (haround : around ⊆ seen) : (∀ x ∈ todo, ¬ (x ∈ around ∧ link x)) ∧
      ∀ x ∈ seen', x ∉ seen → ∀ y ∈ refs x, ¬ (y ∈ around ∧ link y) := by
  induction h generalizing seen' with
  | nil =>
    cases hfound
    exact ⟨by simp, fun x hx hnew => absurd hx hnew⟩
  | old hseen hfree _ ih =>
    obtain ⟨htodo, hrefs⟩ := ih hfound haround
    exact ⟨List.forall_mem_cons.mpr ⟨hfree, htodo⟩, hrefs⟩
  | @new key around seen mid rest found hnew hinner hrest ihinner ihrest =>
    have hgrows := (hinner.discovers rfl).grows
    have hinside : key :: around ⊆ seen ++ [key] :=
      List.cons_subset.mpr ⟨by simp, List.subset_append_of_subset_left _ haround⟩
    obtain ⟨hkeyrefs, hmidrefs⟩ := ihinner rfl hinside
    obtain ⟨htodo, hrefs⟩ := ihrest hfound
      (List.Subset.trans (List.subset_append_of_subset_left _ haround) hgrows.subset)
    -- what is inside of more keys meets no link of fewer
    have hfewer : ∀ y, ¬ (y ∈ key :: around ∧ link y) → ¬ (y ∈ around ∧ link y) :=
      fun y hy hin => hy ⟨List.mem_cons_of_mem _ hin.1, hin.2⟩
    refine ⟨List.forall_mem_cons.mpr ⟨fun hin => hnew (haround hin.1), htodo⟩, ?_⟩
    intro x hx hxnew y hy
    by_cases hxmid : x ∈ mid
    · by_cases hxkey : x = key
      · rw [hxkey] at hy
        exact hfewer y (hkeyrefs y hy)
      · exact hfewer y (hmidrefs x hxmid (by simp [hxnew, hxkey]) y hy)
    · exact hrefs x hx hxmid y hy
  | stopped _ _ => cases hfound
  | inner _ _ _ => cases hfound

/-- The key that a walk starts inside of is on no circle onward, if it is a link. -/
theorem not_circle (h : Walk refs link (key :: around) (seen ++ [key]) (refs key) (some mid))
    (haround : around ⊆ seen) (hlink : link key) : ¬ TransGen (Onward refs seen) key key := by
  have hinside : key :: around ⊆ seen ++ [key] :=
    List.cons_subset.mpr ⟨by simp, List.subset_append_of_subset_left _ haround⟩
  obtain ⟨hkeyrefs, hmidrefs⟩ := h.free rfl hinside
  intro hcircle
  -- the last reference of the circle leads back to the key, and the walk would be stopped there
  obtain ⟨x, hreach, hlast, _⟩ := Relation.TransGen.tail'_iff.mp hcircle
  have hblocked : key ∈ key :: around ∧ link key := ⟨List.mem_cons_self, hlink⟩
  by_cases hx : x = key
  · rw [hx] at hlast
    exact hkeyrefs key hlast hblocked
  · rcases Relation.reflTransGen_iff_eq_or_transGen.mp hreach with heq | hreach
    · exact hx heq
    · obtain ⟨hxmid, hxnew⟩ := (h.discovers rfl).onward hreach
      exact hmidrefs x hxmid (by simp [hxnew, hx]) key hlast hblocked

/-- A walk that is not stopped discovers no link first of a circle. -/
theorem no_circles (h : Walk refs link around seen todo found) (hfound : found = some seen')
    (haround : around ⊆ seen) {before : List String} {a : String}
    (hbefore : before ++ [a] <+: seen') (hnew : ¬ before ++ [a] <+: seen) (ha : link a) :
    ¬ TransGen (Onward refs before) a a := by
  induction h generalizing seen' with
  | nil =>
    cases hfound
    exact absurd hbefore hnew
  | old _ _ _ ih => exact ih hfound haround hbefore hnew
  | @new key around seen mid rest found hkey hinner hrest ihinner ihrest =>
    have hgrows := (hinner.discovers rfl).grows
    have hinside : key :: around ⊆ seen ++ [key] :=
      List.cons_subset.mpr ⟨by simp, List.subset_append_of_subset_left _ haround⟩
    have haroundmid : around ⊆ mid :=
      List.Subset.trans (List.subset_append_of_subset_left _ haround) hgrows.subset
    -- `a` was discovered inside of the key, or after it
    by_cases hmid : before ++ [a] <+: mid
    · by_cases hfirst : before ++ [a] <+: seen ++ [key]
      · -- the key itself is the one
        rcases List.prefix_concat_iff.mp hfirst with heq | hold
        · obtain ⟨rfl, rfl⟩ : before = seen ∧ a = key := by
            simpa using List.append_inj' heq rfl
          exact hinner.not_circle haround ha
        · exact absurd hold hnew
      · exact ihinner rfl hinside hmid hfirst
    · exact ihrest hfound haroundmid hbefore hmid
  | stopped _ _ => cases hfound
  | inner _ _ _ => cases hfound

/-- Every key that a walk is inside of leads onward to what the walk goes through. -/
def Inside (refs : String → List String) (around seen todo : List String) : Prop :=
  ∀ a ∈ around, ∃ before, before ++ [a] <+: seen ∧ a ∉ before ∧
    ∀ x ∈ todo, x ∉ before → TransGen (Onward refs before) a x

/-- Inside of one more key, what that key refers to is gone through. -/
theorem Inside.enter (h : Inside refs around seen (key :: todo)) (hnew : key ∉ seen) :
    Inside refs (key :: around) (seen ++ [key]) (refs key) := by
  intro a ha
  rcases List.mem_cons.mp ha with rfl | ha
  · exact ⟨seen, List.prefix_refl _, hnew, fun x hx hxnew => .single ⟨hx, hxnew⟩⟩
  · obtain ⟨before, hbefore, hfirst, hreach⟩ := h a ha
    refine ⟨before, hbefore.trans (List.prefix_append _ _), hfirst, ?_⟩
    intro x hx hxnew
    have hkey : key ∉ before := fun hin =>
      hnew (((List.prefix_append _ _).trans hbefore).subset hin)
    exact .tail (hreach key List.mem_cons_self hkey) ⟨hx, hxnew⟩

/-- Behind a key that is done the walk is still inside of the same keys. -/
theorem Inside.leave (h : Inside refs around seen (key :: todo)) (hgrows : seen <+: mid) :
    Inside refs around mid todo := by
  intro a ha
  obtain ⟨before, hbefore, hfirst, hreach⟩ := h a ha
  exact ⟨before, hbefore.trans hgrows, hfirst, fun x hx => hreach x (List.mem_cons_of_mem _ hx)⟩

/-- A walk that is stopped is inside of a link that is the first one of a circle. -/
theorem circles (h : Walk refs link around seen todo found) (hfound : found = none)
    (hinside : Inside refs around seen todo) {full : List String}
    (hfull : Discovers refs seen todo full) : Circles refs link full := by
  induction h generalizing full with
  | nil => cases hfound
  | old hseen _ _ ih =>
    cases hfull with
    | old _ hrest => exact ih hfound (hinside.leave (List.prefix_refl _)) hrest
    | new hnew _ _ => exact absurd hseen hnew
  | new hnew hinner _ _ ihrest =>
    cases hfull with
    | old hseen _ => exact absurd hseen hnew
    | new _ hinner' hrest' =>
      obtain rfl := (hinner.discovers rfl).unique hinner'
      have hgrows := (List.prefix_append _ _).trans hinner'.grows
      exact ihrest hfound (hinside.leave hgrows) hrest'
  | @stopped key _ _ _ haround hlink =>
    -- the link leads back to a key that the walk is inside of
    obtain ⟨before, hbefore, hfirst, hreach⟩ := hinside key haround
    exact ⟨before, key, hbefore.trans hfull.grows, hlink,
      hreach key List.mem_cons_self hfirst⟩
  | inner hnew _ ih =>
    cases hfull with
    | old hseen _ => exact absurd hseen hnew
    | new _ hinner hrest =>
      obtain ⟨before, a, hbefore, hlink, hcircle⟩ := ih rfl (hinside.enter hnew) hinner
      exact ⟨before, a, hbefore.trans hrest.grows, hlink, hcircle⟩

/-- A walk through keys that refer to each other only is stopped exactly when, of the keys of some
circle of references, the one that is discovered first is a link. -/
theorem stopped_iff (h : Walk refs link [] [] todo found) {keys : List String}
    (hkeys : ∀ x ∈ keys, refs x ⊆ keys) (htodo : todo ⊆ keys) :
    found = none ↔ ∃ order, Discovers refs [] todo order ∧ Circles refs link order := by
  constructor
  · intro hfound
    obtain ⟨order, horder, _⟩ := exists_discovers hkeys List.nodup_nil (List.nil_subset _) htodo
    exact ⟨order, horder, h.circles hfound (by simp [Inside]) horder⟩
  · rintro ⟨order, horder, before, a, hbefore, hlink, hcircle⟩
    cases hfound : found with
    | none => rfl
    | some seen' =>
      obtain rfl := (h.discovers hfound).unique horder
      have hnew : ¬ before ++ [a] <+: [] := by simp
      exact absurd hcircle (h.no_circles hfound (List.nil_subset _) hbefore hnew hlink)

end Walk

/-! ## Circles -/

/-- Among the keys of an order with a property there is a first one. -/
theorem exists_first {P : String → Prop} {order : List String} (h : ∃ x ∈ order, P x) :
    ∃ before a, before ++ [a] <+: order ∧ P a ∧ ∀ x ∈ before, ¬ P x := by
  induction order with
  | nil => simp at h
  | cons key rest ih =>
    by_cases hkey : P key
    · exact ⟨[], key, by simp, hkey, by simp⟩
    · obtain ⟨x, hx, hPx⟩ := h
      have hrest : x ∈ rest := by
        rcases List.mem_cons.mp hx with rfl | hx
        · exact absurd hPx hkey
        · exact hx
      obtain ⟨before, a, hbefore, ha, hfirst⟩ := ih ⟨x, hrest, hPx⟩
      refine ⟨key :: before, a, ?_, ha, List.forall_mem_cons.mpr ⟨hkey, hfirst⟩⟩
      exact (List.prefix_cons_inj key).mpr hbefore

/-- A reference of a link. -/
def LinksTo (refs : String → List String) (link : String → Prop) (x y : String) : Prop :=
  link x ∧ y ∈ refs x

/-- A key lies on a circle of links with another one. -/
def OnCircle (refs : String → List String) (link : String → Prop) (x y : String) : Prop :=
  ReflTransGen (LinksTo refs link) x y ∧ ReflTransGen (LinksTo refs link) y x

/-- Of a circle of links, whichever is discovered first is a link. -/
theorem circles_of_links {order : List String} (hx : x ∈ order)
    (hcircle : TransGen (LinksTo refs link) x x) : Circles refs link order := by
  obtain ⟨before, a, hbefore, ⟨hto, hfrom⟩, hfirst⟩ :=
    exists_first (P := OnCircle refs link x) ⟨x, hx, .refl, .refl⟩
  have haround : TransGen (LinksTo refs link) a a :=
    TransGen.trans_right hfrom (TransGen.trans_left hcircle hto)
  -- on the way round there is nothing that was discovered before
  have honward : ∀ y, TransGen (LinksTo refs link) a y → ReflTransGen (LinksTo refs link) y a →
      TransGen (Onward refs before) a y := by
    intro y hay
    induction hay with
    | @single y hstep =>
      intro hya
      have hy : OnCircle refs link x y := ⟨hto.tail hstep, hya.trans hfrom⟩
      exact .single ⟨hstep.2, fun hin => hfirst y hin hy⟩
    | @tail y z hay hstep ih =>
      intro hza
      have hz : OnCircle refs link x z :=
        ⟨(hto.trans hay.to_reflTransGen).tail hstep, hza.trans hfrom⟩
      exact .tail (ih (.head hstep hza)) ⟨hstep.2, fun hin => hfirst z hin hz⟩
  obtain ⟨_, ⟨hlink, _⟩, _⟩ := Relation.TransGen.head'_iff.mp haround
  exact ⟨before, a, hbefore, hlink, honward a haround .refl⟩

end Grammar

end Conceal
