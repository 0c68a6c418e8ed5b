import Conceal.Proofs.Json.Keys
import Conceal.Proofs.Masking.Notices
import Conceal.Proofs.Session.Orders

/-!
Rules and entries that cannot be used. Most of them are skipped; an update ends only at a rule whose
selector is a number or a truth value, and at an entry whose pattern is refused for another reason
than that it is malformed. Rules are clean when only the usable entries are left. Main statements:
`fail_mem_orders_iff`, `orders_clean` and `agrees_obey`.
-/

namespace Conceal

/-! ## Entries -/

/-- If it fails, then since something is no mask. -/
def Explained {α : Type} (x : Except Fault α) : Prop :=
  ∀ fault, x = .error fault → ∃ cause, fault = .mask cause

section explained

variable {α β : Type}

private theorem explained_ok (a : α) : Explained (.ok a) := fun _ h => by cases h

private theorem explained_error (cause : MaskFault) :
    Explained (.error (.mask cause) : Except Fault α) :=
  fun _ h => ⟨cause, (Except.error.inj h).symm⟩

/-- Two readers fail as one of them does, and that is explained. -/
theorem Explained.bind {x : Except Fault α} {f : α → Except Fault β} (hx : Explained x)
    (hf : ∀ a, Explained (f a)) : Explained (x >>= f) := by
  cases x with
  | ok a => exact hf a
  | error fault =>
    intro fault' h
    cases h
    exact hx fault rfl

theorem Explained.map {x : Except Fault α} (hx : Explained x) (f : α → β) :
    Explained (x.map f) := by
  cases x with
  | ok a => exact explained_ok _
  | error fault =>
    intro fault' h
    cases h
    exact hx fault rfl

end explained

namespace Mask

/-- A text that cannot be read is no mask. -/
theorem explained_textField (members : Json.Members) (key : String) :
    Explained (textField members key) := by
  unfold textField
  split
  · exact explained_ok _
  · exact explained_ok _
  · exact explained_error _

/-- An override that cannot be read is no mask. -/
theorem explained_overrideOf (literal : String) (value : Json) :
    Explained (overrideOf literal value) := by
  unfold overrideOf
  split
  · exact explained_ok _
  · split
    · refine (explained_textField _ _).bind fun scope => ?_
      exact (explained_textField _ _).bind fun hover => explained_ok _
    · exact explained_error _
  · exact explained_error _

theorem explained_overridesOf (overrides : List (String × Json)) :
    Explained (overridesOf overrides) := by
  induction overrides with
  | nil => exact explained_ok _
  | cons first rest ih =>
    exact (explained_overrideOf first.1 first.2).bind fun _ => ih.bind fun _ => explained_ok _

/-- A replacement that cannot be read is no mask. -/
theorem explained_replacementOf (value : Json) : Explained (replacementOf value) := by
  unfold replacementOf
  split
  · exact explained_ok _
  · exact explained_ok _
  · exact (explained_overridesOf _).map _
  · exact explained_error _

/-- Whatever is wrong with a mask is explained. -/
theorem explained_ofJson (entry : Json) : Explained (ofJson entry) := by
  unfold ofJson
  split
  · refine (explained_replacementOf _).bind fun replacement => ?_
    refine (explained_textField _ _).bind fun scope => ?_
    exact (explained_textField _ _).bind fun hover => explained_ok _
  · exact explained_error _

end Mask

namespace Session

/-- The pattern of an entry is refused, but not since it is malformed. -/
def Refused (entry : Json) : Prop :=
  ∃ members ignoreCase source e, entry = .obj members ∧
    (Json.Members.get? members "ignoreCase").getD (.bool false) = .bool ignoreCase ∧
    Json.Members.get members "pattern" = .str source ∧ source ≠ "" ∧
    Regex.compile source { ignoreCase } = .error e ∧ e ≠ .malformed

/-- Whatever else is wrong with a pattern is explained. -/
theorem explained_of_not_refused {entry : Json} (h : ¬ Refused entry) :
    Explained (Pattern.ofJson entry) := by
  unfold Pattern.ofJson
  split
  next members =>
    split
    next ignoreCase hignoreCase =>
      split
      next source hsource =>
        split
        · exact explained_error _
        next hne =>
          split
          · exact explained_ok _
          next e hcompile =>
            have he : e = .malformed := by
              by_contra he
              exact h ⟨members, ignoreCase, source, e, rfl, hignoreCase, hsource, hne, hcompile, he⟩
            rw [he]
            exact explained_error _
      · exact explained_error _
    · exact explained_error _
  · exact explained_error _

/-- A refused pattern makes an order that fails. -/
theorem orderOf_of_refused {entry : Json} (h : Refused entry) :
    ∃ fault, orderOf entry = .fail fault := by
  obtain ⟨members, ignoreCase, source, e, rfl, hignoreCase, hsource, hne, hcompile, he⟩ := h
  have hpattern : Pattern.ofJson (.obj members) =
      .error (Fault.ofPattern (.mask (.badPattern source)) e) := by
    simp only [Pattern.ofJson, hignoreCase, hsource, if_neg hne, hcompile]
  unfold orderOf readEntry
  rw [hpattern]
  cases e with
  | malformed => exact absurd rfl he
  | repetitionTooLarge => exact ⟨_, rfl⟩
  | repetitionTooLong => exact ⟨_, rfl⟩
  | classesConflict => exact ⟨_, rfl⟩

/-- An entry fails when its pattern is refused, and is applied or skipped else. -/
theorem exists_fail_orderOf_iff (entry : Json) :
    (∃ fault, orderOf entry = .fail fault) ↔ Refused entry := by
  refine ⟨fun ⟨fault, hfail⟩ => ?_, orderOf_of_refused⟩
  by_contra hnot
  have hread : Explained (readEntry entry) := (explained_of_not_refused hnot).bind fun pattern =>
    (Mask.explained_ofJson entry).bind fun mask => explained_ok _
  unfold orderOf at hfail
  split at hfail
  · cases hfail
  · cases hfail
  next other hnone herror =>
    obtain ⟨cause, rfl⟩ := hread _ herror
    exact hnone cause rfl

/-! ## Rules -/

/-- An update of a document ends at a rule: its selector is a number or a truth value, or it selects
the document and the pattern of one of its entries is refused. -/
def Breaks (document : Document) (rule : Json) : Prop :=
  (∃ members, rule = .obj members ∧ (selectorOf members).number?.isSome) ∨
    ∃ entries, entriesFor document rule = .ok entries ∧ ∃ entry ∈ entries, Refused entry

/-- A selector cannot be read when it is a number or a truth value. -/
theorem matching_cases (selector language path : Json) :
    (selector.number?.isSome ∧ ∃ fault, Selector.matching selector language path = .error fault) ∨
      selector.number?.isSome = false ∧
        ∃ selects, Selector.matching selector language path = .ok selects := by
  unfold Selector.matching
  cases selector <;>
    first
    | exact Or.inl ⟨rfl, _, rfl⟩
    | exact Or.inr ⟨rfl, _, rfl⟩

/-- The entries of a rule cannot be told exactly if its selector is a number or a truth value. -/
theorem entriesFor_error_iff (document : Document) (rule : Json) :
    (∃ fault, entriesFor document rule = .error fault) ↔
      ∃ members, rule = .obj members ∧ (selectorOf members).number?.isSome := by
  cases rule with
  | obj members =>
    unfold entriesFor
    -- a number is the only selector that cannot be matched against a language
    rcases matching_cases (selectorOf members) (.str document.languageId)
      ((document.filePath.map Json.str).getD .null) with
      ⟨hnumber, fault, herror⟩ | ⟨hnumber, selects, hok⟩
    · simp only [herror]
      exact ⟨fun _ => ⟨members, rfl, hnumber⟩, fun _ => ⟨fault, rfl⟩⟩
    · simp only [hok]
      constructor
      · rintro ⟨fault, hfault⟩
        cases selects with
        | false => cases hfault
        | true =>
          simp only [if_true, bind, Except.bind] at hfault
          split at hfault <;> cases hfault
      · rintro ⟨members', heq, hnumber'⟩
        cases heq
        rw [hnumber] at hnumber'
        cases hnumber'
  | _ =>
    constructor
    · rintro ⟨fault, hfault⟩
      cases hfault
    · rintro ⟨members, heq, _⟩
      cases heq

/-- There is a failure among what is to be done when an update ends at a rule. -/
theorem fail_mem_orders_iff (document : Document) (rules : List Json) :
    (∃ fault, .fail fault ∈ orders document rules) ↔ ∃ rule ∈ rules, Breaks document rule := by
  induction rules with
  | nil => simp [orders]
  | cons rule rest ih =>
    rw [List.exists_mem_cons_iff, ← ih, orders, Breaks, ← entriesFor_error_iff]
    cases hentries : entriesFor document rule with
    | error fault => simp
    | ok entries =>
      have hhere : (∃ fault, .fail fault ∈ entries.map orderOf) ↔
          ∃ entry ∈ entries, Refused entry := by
        simp only [List.mem_map, ← exists_fail_orderOf_iff]
        tauto
      simp only [List.mem_append, exists_or, hhere]
      simp

/-! ## Clean rules -/

/-- A rule without the entries that are no masks, unless its selector is a number or a truth value,
or its entries are no list. -/
def cleanRule : Json → Option Json
  | .obj rule =>
    if (selectorOf rule).number?.isSome then none
    else
      match Json.Members.get rule "patterns" with
      | .arr entries =>
        some (.obj (Json.Members.insert rule "patterns"
          (.arr (entries.filter fun entry => (Entry.read? entry).isSome))))
      | _ => none
  | _ => none

/-- An entry that can be read is applied. -/
theorem orderOf_of_isSome {entry : Json} (h : (Entry.read? entry).isSome) :
    ∃ x, Entry.read? entry = some x ∧ orderOf entry = .apply x := by
  obtain ⟨x, hread⟩ := Option.isSome_iff_exists.mp h
  refine ⟨x, hread, ?_⟩
  unfold Entry.read? at hread
  unfold orderOf readEntry
  split at hread
  next pattern mask hpattern hmask =>
    cases hread
    rw [hpattern, hmask]
    rfl
  · cases hread

/-- Of usable entries all are applied. -/
theorem map_orderOf_filter (entries : List Json) :
    (entries.filter fun entry => (Entry.read? entry).isSome).map orderOf =
      (entries.filterMap Entry.read?).map Order.apply := by
  induction entries with
  | nil => rfl
  | cons entry rest ih =>
    rw [List.filter_cons, List.filterMap_cons]
    split
    next hsome =>
      obtain ⟨x, hread, horder⟩ := orderOf_of_isSome hsome
      rw [List.map_cons, hread, horder, ih]
      rfl
    next hnone =>
      rw [Option.not_isSome_iff_eq_none.mp hnone, ih]

/-- Other patterns leave the selector. -/
theorem selectorOf_insert (rule : Json.Members) (value : Json) :
    selectorOf (rule.insert "patterns" value) = selectorOf rule := by
  unfold selectorOf Json.Members.get
  rw [Json.Members.get?_insert, Json.Members.get?_insert, if_neg (by decide), if_neg (by decide)]

theorem get_insert_self (members : Json.Members) (key : String) (value : Json) :
    (members.insert key value).get key = value := by
  rw [Json.Members.get, Json.Members.get?_insert, if_pos rfl, Option.getD_some]

/-- A clean rule selects the usable entries of the rule. -/
theorem entriesFor_cleanRule (document : Document) (rule : Json) :
    (cleanRule rule = none ∧ (entriesFor document rule).toOption.getD [] = []) ∨
      ∃ clean, cleanRule rule = some clean ∧ entriesFor document clean =
        .ok (((entriesFor document rule).toOption.getD []).filter fun entry =>
          (Entry.read? entry).isSome) := by
  cases rule with
  | obj rule =>
    unfold cleanRule
    rcases matching_cases (selectorOf rule) (.str document.languageId)
      ((document.filePath.map Json.str).getD .null) with
      ⟨hnumber, fault, herror⟩ | ⟨hnumber, selects, hok⟩
    · refine Or.inl ⟨if_pos hnumber, ?_⟩
      simp only [entriesFor, herror]
      rfl
    · simp only [hnumber, Bool.false_eq_true, if_false]
      cases hentries : Json.Members.get rule "patterns" with
      | arr entries =>
        refine Or.inr ⟨_, rfl, ?_⟩
        simp only [entriesFor, selectorOf_insert, get_insert_self, hok, hentries]
        cases selects <;> rfl
      | _ =>
        refine Or.inl ⟨rfl, ?_⟩
        simp only [entriesFor, hok, hentries]
        cases selects <;> rfl
  | _ => exact Or.inl ⟨rfl, rfl⟩

/-- With clean rules all that is selected is applied. -/
theorem orders_clean (document : Document) (rules : List Json) :
    orders document (rules.filterMap cleanRule) = (selected document rules).map Order.apply := by
  induction rules with
  | nil => rfl
  | cons rule rest ih =>
    have hselected : selected document (rule :: rest) =
        ((entriesFor document rule).toOption.getD []).filterMap Entry.read? ++
          selected document rest := by
      rw [selected, List.flatMap_cons]
      cases entriesFor document rule <;> rfl
    rw [List.filterMap_cons, hselected, List.map_append]
    rcases entriesFor_cleanRule document rule with ⟨hnone, hentries⟩ | ⟨clean, hclean, hentries⟩
    · rw [hnone, hentries, ih]
      rfl
    · rw [hclean]
      dsimp only
      rw [orders, hentries]
      dsimp only
      rw [map_orderOf_filter, ih]

end Session

namespace Masking

/-! ## Skipping -/

/-- Where no entry fails, skipping some of them is the same as not having them. -/
theorem agrees_obey (caretStyle : String) {os : List Order} (h : ∀ fault, .fail fault ∉ os) :
    Step.Agrees Similar (obey caretStyle os)
      (obey caretStyle ((Order.entries os).map Order.apply)) := by
  induction os with
  | nil => exact Step.agrees_pure 0
  | cons o rest ih =>
    have hrest := ih fun fault hmem => h fault (List.mem_cons_of_mem _ hmem)
    cases o with
    | fail fault => exact absurd List.mem_cons_self (h fault)
    | skip =>
      intro m n hsimilar
      have hskip : obey caretStyle (.skip :: rest) m =
          obey caretStyle rest { m with notices := m.notices ++ [.patternSkipped] } := by
        have hreport : report .patternSkipped m = .ok () _ := Step.modify_apply m _
        rw [obey, Step.bind_of_ok hreport]
        simp only [Nat.zero_add, bind_pure]
      rw [hskip]
      exact hrest _ n ⟨hsimilar.decorations, hsimilar.scopes, hsimilar.passKeys⟩
    | apply x =>
      exact (agrees_apply _ _ _).bind fun _ => hrest.bind fun _ => Step.agrees_pure _

/-- What comes to an end has not failed. -/
theorem not_fail_of_obey {caretStyle : String} {os : List Order} {m m' : Masking} {applied : Nat}
    (h : obey caretStyle os m = .ok applied m') (fault : Fault) : .fail fault ∉ os := by
  induction os generalizing m applied m' with
  | nil => exact List.not_mem_nil
  | cons o rest ih =>
    have hrest : ∃ applied' m₁ m₂, obey caretStyle rest m₁ = .ok applied' m₂ := by
      cases o with
      | fail other => cases h
      | skip =>
        obtain ⟨_, m₁, -, h⟩ := Step.exists_of_bind_eq_ok h
        obtain ⟨applied', m₂, hrest, -⟩ := Step.exists_of_bind_eq_ok h
        exact ⟨applied', m₁, m₂, hrest⟩
      | apply x =>
        obtain ⟨_, m₁, -, h⟩ := Step.exists_of_bind_eq_ok h
        obtain ⟨applied', m₂, hrest, -⟩ := Step.exists_of_bind_eq_ok h
        exact ⟨applied', m₁, m₂, hrest⟩
    obtain ⟨applied', m₁, m₂, hrest⟩ := hrest
    intro hmem
    rcases List.mem_cons.mp hmem with rfl | hmem
    · cases h
    · exact ih hrest hmem

end Masking

end Conceal
