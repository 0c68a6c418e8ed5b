import Conceal.Proofs.Masking.Kept

/-!
Updates inside updates. An update inside begins with no keys noted, so each of its applications
removes what the one around it has used, and what it has used itself is unknown to the one around.
Main statement: `lasts_iff`, by which the end of an update leaves those keys that its own
applications use after the last update inside, or that they use at all and that update leaves.
-/

namespace Conceal

/-- What is done in an update: applications, and updates inside. -/
inductive Body where
  | done
  | apply (x : Entry) (caretStyle : String) (rest : Body)
  | update (inner rest : Body)

namespace Body

section keys

-- a key is told by the applications that use it
variable (uses : Entry → String → Prop)

/-- An application in the body uses the key, if only in an update inside. -/
def Uses : Body → Prop
  | done => False
  | apply x caretStyle rest => uses x caretStyle ∨ rest.Uses
  | update inner rest => inner.Uses ∨ rest.Uses

/-- An application of the body itself uses the key. -/
def Owns : Body → Prop
  | done => False
  | apply x caretStyle rest => uses x caretStyle ∨ rest.Owns
  | update _ rest => rest.Owns

/-- The last update inside. -/
def last? : Body → Option Body
  | done => none
  | apply _ _ rest => rest.last?
  | update inner rest => some (rest.last?.getD inner)

/-- An application of the body itself uses the key after the last update inside. -/
def OwnsLate : Body → Prop
  | done => False
  | apply x caretStyle rest => rest.last? = none ∧ uses x caretStyle ∨ rest.OwnsLate
  | update _ rest => rest.OwnsLate

/-- The key lasts to the end of an update with the body. -/
inductive Lasts : Body → Prop
  | late {P : Body} (howns : P.OwnsLate uses) : Lasts P
  | inside {P Q : Body} (hlast : P.last? = some Q) (howns : P.Owns uses) (h : Lasts Q) : Lasts P

end keys

variable {uses : Entry → String → Prop} {P Q : Body}

/-- A key lasts since it is used late, or since the last update inside ends with it and the body
uses it itself. -/
theorem lasts_iff_late_or : P.Lasts uses ↔
    P.OwnsLate uses ∨ ∃ Q, P.last? = some Q ∧ P.Owns uses ∧ Q.Lasts uses := by
  constructor
  · rintro (howns | ⟨hlast, howns, h⟩)
    · exact Or.inl howns
    · exact Or.inr ⟨_, hlast, howns, h⟩
  · rintro (howns | ⟨Q, hlast, howns, h⟩)
    · exact .late howns
    · exact .inside hlast howns h

/-- With no update inside, all applications come late. -/
theorem ownsLate_iff (h : P.last? = none) : P.OwnsLate uses ↔ P.Owns uses := by
  induction P with
  | done => exact Iff.rfl
  | apply x caretStyle rest ih =>
    rw [OwnsLate, Owns, ih h]
    exact or_congr_left (and_iff_right h)
  | update inner rest _ _ => cases h

/-- Without an update inside, all that a body uses it uses itself. -/
theorem owns_iff (h : P.last? = none) : P.Owns uses ↔ P.Uses uses := by
  induction P with
  | done => exact Iff.rfl
  | apply x caretStyle rest ih => rw [Owns, Uses, ih h]
  | update inner rest _ _ => cases h

/-- With no update inside, every key that is used lasts. -/
theorem lasts_iff_uses (h : P.last? = none) : P.Lasts uses ↔ P.Uses uses := by
  rw [lasts_iff_late_or, ownsLate_iff h, owns_iff h, h]
  simp

/-- Does what a body consists of. -/
def run : Body → Step Masking Unit
  | done => return
  | apply x caretStyle rest => do
    let _ ← Masking.apply x.pattern x.mask caretStyle
    rest.run
  | update inner rest => do
    Masking.update inner.run
    rest.run

end Body

namespace Masking

open Decorations Body

variable {m m' : Masking} {host : String}

/-- However updates are nested, nobody but the host is contacted. -/
theorem works_run (P : Body) : Step.Obeys Works P.run := by
  induction P with
  | done => exact Step.obeys_pure _
  | apply x caretStyle rest ih => exact (works_apply _ _ _).bind fun _ => ih
  | update inner rest ihinner ihrest => exact (works_update ihinner).bind fun _ => ihrest

theorem works_of_run {P : Body} (h : P.run m = .ok () m') : Works m m' := by
  have hworks := works_run P m
  rwa [Step.after_of_ok h] at hworks

/-- However updates are nested, a host that grants every call lets them end. -/
theorem completes_run (P : Body) : Step.Completes Granted P.run := by
  induction P with
  | done => exact Step.completes_pure _
  | apply x caretStyle rest ih =>
    exact (completes_apply x caretStyle).bind (fun m hm => (works_apply _ _ _ m).granted hm)
      fun _ => ih
  | update inner rest ihinner ihrest =>
    exact (completes_update ihinner (works_run inner)).bind
      (fun m hm => (works_update (works_run inner) m).granted hm) fun _ => ihrest

/-- The applications that use a key. -/
def Users (m : Masking) (key : String) (x : Entry) (caretStyle : String) : Prop :=
  m.Uses x caretStyle key

theorem Works.users_eq (h : Works m m') (key : String) : m'.Users key = m.Users key := by
  funext x caretStyle
  exact propext h.uses_iff

/-- A key is there, and the update has noted it. -/
def Holds (m : Masking) (key : String) : Prop :=
  key ∈ m.decorations.keys ∧ key ∈ m.passKeys.getD []

/-- What an application notes and leaves, with a document or without one. -/
theorem holds_apply {x : Entry} {caretStyle : String} {n : Nat} {noted : List String}
    (h : m.decorations.Stands host) (hnoted : m.passKeys = some noted)
    (hok : apply x.pattern x.mask caretStyle m = .ok n m') :
    ∃ noted', m'.passKeys = some noted' ∧ ∀ key,
      (key ∈ noted' ↔ key ∈ noted ∨ m.Users key x caretStyle) ∧
        (m'.Holds key ↔ m.Users key x caretStyle ∨ m.Holds key) := by
  cases hdocument : m.decorations.desk.document? host with
  | none =>
    -- without a text nothing is used, noted or evicted
    have hnone : ∀ key, ¬ m.Users key x caretStyle := by
      rintro key ⟨v, hscene, -⟩
      have heditor : m.editor? = some host := h.host
      simp [scene?, heditor, hdocument] at hscene
    obtain ⟨hhandles, hpass⟩ := apply_of_no_document h.host hdocument hok
    refine ⟨noted, hpass.trans hnoted, fun key => ?_⟩
    simp [hnone, Holds, Decorations.keys, hhandles, hpass]
  | some document =>
    obtain ⟨used, huses, hpass, hkeys⟩ := keys_apply h (by simp [hdocument]) hok
    rw [hnoted] at hpass hkeys
    refine ⟨noted ++ used, hpass, fun key => ?_⟩
    have huses : key ∈ used ↔ m.Users key x caretStyle := huses key
    rw [Holds, Holds, hkeys, hpass, hnoted, Option.map_some, Option.getD_some, Option.getD_some,
      List.mem_append, huses]
    refine ⟨Iff.rfl, ?_⟩
    by_cases hused : m.Users key x caretStyle
    · simp [hused]
    · simp [hused]

/-- What a body notes and leaves in an update that has noted some keys before. -/
theorem holds_run {P : Body} {noted : List String} (h : m.decorations.Stands host)
    (hnoted : m.passKeys = some noted) (hok : P.run m = .ok () m') :
    ∃ noted', m'.passKeys = some noted' ∧ ∀ key,
      (key ∈ noted' ↔ key ∈ noted ∨ P.Owns (m.Users key)) ∧
        (m'.Holds key ↔ P.OwnsLate (m.Users key) ∨
          (∃ Q, P.last? = some Q ∧ (key ∈ noted ∨ P.Owns (m.Users key)) ∧
            Q.Lasts (m.Users key)) ∨ P.last? = none ∧ m.Holds key) := by
  induction P generalizing m m' noted with
  | done =>
    cases hok
    exact ⟨noted, hnoted, fun key => by simp [Owns, OwnsLate, last?]⟩
  | apply x caretStyle rest ih =>
    obtain ⟨_, m₁, hfirst, hrest⟩ := Step.exists_of_bind_eq_ok hok
    have hworks := works_of_apply hfirst
    obtain ⟨noted₁, hnoted₁, hholds₁⟩ := holds_apply h hnoted hfirst
    obtain ⟨noted', hnoted', hholds⟩ := ih (hworks.stands h) hnoted₁ hrest
    refine ⟨noted', hnoted', fun key => ?_⟩
    obtain ⟨hmem, hheld⟩ := hholds key
    rw [hworks.users_eq] at hmem hheld
    rw [hmem, hheld, (hholds₁ key).1, (hholds₁ key).2, Owns, OwnsLate, last?]
    refine ⟨or_assoc, ?_⟩
    cases rest.last? with
    | none => simp [or_assoc, or_left_comm]
    | some Q => simp [or_assoc]
  | update inner rest ihinner ihrest =>
    obtain ⟨_, m₂, hupdate, hrest⟩ := Step.exists_of_bind_eq_ok hok
    cases hinner : inner.run { m with passKeys := some [] } with
    | error fault m₁ =>
      rw [update_of_error hinner] at hupdate
      cases hupdate
    | ok _ m₁ =>
      have hbegin := works_passKeys m (some [])
      have hworks₁ := hbegin.trans (works_of_run hinner)
      have hworks₂ : Works m m₂ := by
        have hall := works_update (works_run inner) m
        rwa [Step.after_of_ok hupdate] at hall
      obtain ⟨noted₁, hnoted₁, hholds₁⟩ := ihinner (hbegin.stands h) rfl hinner
      obtain ⟨hpass₂, hkeys₂⟩ := keys_update hinner (hworks₁.stands h) hupdate
      obtain ⟨noted', hnoted', hholds⟩ :=
        ihrest (hworks₂.stands h) (hpass₂.trans hnoted) hrest
      refine ⟨noted', hnoted', fun key => ?_⟩
      -- the end of the update inside leaves what lasts in it
      have hleft : m₂.Holds key ↔ key ∈ noted ∧ inner.Lasts (m.Users key) := by
        have hheld₁ := (hholds₁ key).2
        rw [hbegin.users_eq] at hheld₁
        rw [Holds, hkeys₂, hpass₂, hnoted, Option.getD_some, and_comm]
        refine and_congr_right fun _ => hheld₁.trans ?_
        rw [lasts_iff_late_or]
        simp [Holds]
      obtain ⟨hmem, hheld⟩ := hholds key
      rw [hworks₂.users_eq] at hmem hheld
      rw [hmem, hheld, hleft, Owns, OwnsLate, last?]
      refine ⟨Iff.rfl, ?_⟩
      cases hlast : rest.last? with
      | some Q => simp
      | none =>
        rw [ownsLate_iff hlast]
        by_cases howns : rest.Owns (m.Users key)
        · simp [howns]
        · simp [howns]

/-- The end of an update leaves exactly the keys that last. So all keys that are used in it, if only
in an update inside, are there in the end exactly if they all last. An editor that grants every call
lets the update come to its end. -/
theorem lasts_iff (h : m.decorations.Stands host) (P : Body) :
    (m.Granted → ∃ m', update P.run m = .ok () m') ∧
    ∀ m', update P.run m = .ok () m' →
      (∀ key, key ∈ m'.decorations.keys ↔ P.Lasts (m.Users key)) ∧
      ((∀ key, P.Uses (m.Users key) → key ∈ m'.decorations.keys) ↔
        ∀ key, P.Uses (m.Users key) → P.Lasts (m.Users key)) := by
  refine ⟨fun hgranted => ?_, fun m' hok => ?_⟩
  · obtain ⟨_, m', hok⟩ := completes_update (completes_run P) (works_run P) m hgranted
    exact ⟨m', hok⟩
  · have hkeys : ∀ key, key ∈ m'.decorations.keys ↔ P.Lasts (m.Users key) := by
      cases hbody : P.run { m with passKeys := some [] } with
      | error fault m₁ =>
        rw [update_of_error hbody] at hok
        cases hok
      | ok _ m₁ =>
        have hbegin := works_passKeys m (some [])
        obtain ⟨noted, hnoted, hholds⟩ := holds_run (hbegin.stands h) rfl hbody
        obtain ⟨-, hleft⟩ := keys_update hbody ((hbegin.trans (works_of_run hbody)).stands h) hok
        intro key
        have hheld := (hholds key).2
        rw [hbegin.users_eq] at hheld
        rw [hleft, lasts_iff_late_or]
        refine hheld.trans ?_
        simp [Holds]
    simp only [hkeys, true_and, implies_true]

/-- Entries for one letter each. -/
def swapA : Entry := (Entry.read? (swap "a" "x")).get (by decide +kernel)

def swapB : Entry := (Entry.read? (swap "b" "y")).get (by decide +kernel)

/-- The update inside uses the key from before it, and the last application one from inside it. -/
def overlapping : Body :=
  .apply swapA "line" (.update (.apply swapA "line" (.apply swapB "line" .done))
    (.apply swapB "line" .done))

/-- Two keys of which both are used inside and outside last. -/
theorem overlapping_lasts : ∃ m', update overlapping.run masked = .ok () m' ∧
    ∀ key, key ∈ ["a", "b"] → key ∈ m'.decorations.keys ∧ overlapping.Lasts (masked.Users key) := by
  have houtcome : Step.outcome (update overlapping.run) masked = .ok () := by decide +kernel
  have hstands : masked.decorations.Stands "e" := ⟨by decide +kernel, by decide +kernel⟩
  have hok := Step.eq_of_outcome houtcome
  have hkeys := ((lasts_iff hstands overlapping).2 _ hok).1
  refine ⟨_, hok, fun key hkey => ?_⟩
  have hmem : key ∈ (Step.after (update overlapping.run) masked).decorations.keys := by
    have hall : ∀ key ∈ ["a", "b"],
        key ∈ (Step.after (update overlapping.run) masked).decorations.keys := by decide +kernel
    exact hall key hkey
  exact ⟨hmem, (hkeys key).mp hmem⟩

/-- An update with another one at its end. -/
def trailing : Body := .apply swapA "line" (.update (.apply swapB "line" .done) .done)

/-- Both entries are applied, and no key is there in the end. -/
theorem trailing_keys_gone :
    Step.outcome (update trailing.run) masked = .ok () ∧ trailing.Uses (masked.Users "a") ∧
      trailing.Uses (masked.Users "b") ∧
      (Step.after (update trailing.run) masked).decorations.keys = [] := by
  refine ⟨by decide +kernel, Or.inl ⟨⟨{ text := "a b" }, [], {}, "line"⟩, rfl, Or.inl ?_⟩,
    Or.inr (Or.inl (Or.inl ⟨⟨{ text := "a b" }, [], {}, "line"⟩, rfl, Or.inl ?_⟩)),
    by decide +kernel⟩
  · decide +kernel
  · decide +kernel

end Masking

end Conceal
