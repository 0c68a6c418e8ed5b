import Conceal.Proofs.Masking.Trace
import Conceal.Session.Update
import Mathlib.Data.List.Flatten

/-!
The entries of settings: all that there are, and those whose rules select a document. An update of a
session is an update of its masking that does in order what is to be done about the selected
entries. Main statements: `applyRules_eq`, and `entries_orders` for updates that do not fail.
-/

namespace Conceal

/-- The entries that are applied. -/
def Order.entries : List Order → List Entry
  | [] => []
  | .apply x :: rest => x :: entries rest
  | _ :: rest => entries rest

/-- The looks of orders are those of the entries to apply. -/
theorem Order.looks_eq (os : List Order) : looks os = (entries os).flatMap Entry.looks := by
  induction os with
  | nil => rfl
  | cons o rest ih =>
    cases o with
    | apply x => rw [looks, entries, List.flatMap_cons, ih]
    | _ => exact ih

/-- An entry is among those to apply if there is an order for it. -/
theorem Order.mem_entries {os : List Order} {x : Entry} : x ∈ entries os ↔ .apply x ∈ os := by
  induction os with
  | nil => simp [entries]
  | cons o rest ih => cases o <;> simp [entries, ih]

theorem Order.entries_append (os os' : List Order) :
    entries (os ++ os') = entries os ++ entries os' := by
  induction os with
  | nil => rfl
  | cons o rest ih => cases o <;> simp [entries, ih]

namespace Masking

/-- Orders are obeyed one after the other, and what they have masked is added up. -/
theorem obey_append (caretStyle : String) (os os' : List Order) :
    obey caretStyle (os ++ os') = (do
      let applied ← obey caretStyle os
      return applied + (← obey caretStyle os')) := by
  induction os with
  | nil => simp only [List.nil_append, obey, pure_bind, Nat.zero_add, bind_pure]
  | cons o rest ih =>
    cases o with
    | fail fault => rfl
    | _ => simp only [List.cons_append, obey, ih, bind_assoc, pure_bind, Nat.add_assoc]

/-- When no entry fails, what is drawn is what the applied entries draw. -/
theorem drawingsOf_eq_ok {m : Masking} {caretStyle : String} {os : List Order}
    {drawing : List Drawn} (h : m.drawingsOf caretStyle os = .ok drawing) :
    (∀ fault, .fail fault ∉ os) ∧ ∃ drawings,
      (Order.entries os).mapM (m.drawingOf caretStyle) = .ok drawings ∧
        drawings.flatten = drawing := by
  induction os generalizing drawing with
  | nil => cases h; exact ⟨by simp, [], rfl, rfl⟩
  | cons o rest ih =>
    cases o with
    | fail fault => cases h
    | skip =>
      obtain ⟨hfail, hrest⟩ := ih h
      exact ⟨by simpa using hfail, hrest⟩
    | apply x =>
      obtain ⟨first, later, hfirst, hlater, rfl⟩ := drawingsOf_cons_ok h
      obtain ⟨hfail, drawings, hmap, rfl⟩ := ih hlater
      refine ⟨by simpa using hfail, first :: drawings, ?_, rfl⟩
      rw [Order.entries, List.mapM_cons, hfirst, hmap]
      rfl

end Masking

namespace Session

/-! ## Entries of rules -/

/-- The valid entries of a rule. -/
def entriesOfRule : Json → List Entry
  | .obj rule =>
    match Json.Members.get rule "patterns" with
    | .arr entries => entries.filterMap Entry.read?
    | _ => []
  | _ => []

/-- The valid entries of rules, in order. -/
def entriesOf (rules : List Json) : List Entry := rules.flatMap entriesOfRule

/-- The keys that valid entries of rules can have decorations for, with their looks. -/
def looksOf (rules : List Json) : List (String × Look) := (entriesOf rules).flatMap Entry.looks

/-- The valid entries of the rules that select a document, in order. -/
def selected (document : Document) (rules : List Json) : List Entry :=
  rules.flatMap fun rule =>
    match entriesFor document rule with
    | .ok entries => entries.filterMap Entry.read?
    | .error _ => []

/-- What is to be done about an entry. -/
def orderOf (entry : Json) : Order :=
  match readEntry entry with
  | .ok (pattern, mask) => .apply ⟨pattern, mask⟩
  | .error (.mask _) => .skip
  | .error fault => .fail fault

/-- What is to be done about the entries of the rules that select a document. -/
def orders (document : Document) : List Json → List Order
  | [] => []
  | rule :: rest =>
    match entriesFor document rule with
    | .ok entries => entries.map orderOf ++ orders document rest
    | .error fault => [.fail fault]

/-- There are orders for the entries that can be read, and only for those. -/
theorem entries_orderOf (entries : List Json) :
    Order.entries (entries.map orderOf) = entries.filterMap Entry.read? := by
  induction entries with
  | nil => rfl
  | cons entry rest ih =>
    have hread : Entry.read? entry = match readEntry entry with
        | .ok (pattern, mask) => some ⟨pattern, mask⟩
        | .error _ => none := by
      unfold Entry.read? readEntry
      cases Pattern.ofJson entry with
      | error fault => rfl
      | ok pattern => cases Mask.ofJson entry <;> rfl
    rw [List.map_cons, List.filterMap_cons, hread, orderOf]
    split
    next h => rw [h, Order.entries, ih]
    next h => rw [h]; exact ih
    next h => rw [h]; exact ih

/-- The entries of a rule are selected all or none. -/
theorem entriesFor_eq_ok {document : Document} {rule : Json} {entries : List Json}
    (h : entriesFor document rule = .ok entries) :
    entries.filterMap Entry.read? = [] ∨
      entries.filterMap Entry.read? = entriesOfRule rule := by
  unfold entriesFor at h
  split at h
  next rule =>
    obtain ⟨selects, _, h⟩ := bind_eq_ok.mp h
    cases selects with
    | false => cases h; exact Or.inl rfl
    | true =>
      unfold entriesOfRule
      dsimp only
      cases hentries : Json.Members.get rule "patterns" with
      | arr all => simp only [hentries, if_true] at h; cases h; exact Or.inr rfl
      | _ => simp only [hentries, if_true] at h; cases h; exact Or.inl rfl
  · cases h; exact Or.inl rfl

/-- The entries for a document are some of all entries, in their order. -/
theorem selected_sublist (document : Document) (rules : List Json) :
    (selected document rules).Sublist (entriesOf rules) := by
  induction rules with
  | nil => exact List.Sublist.refl []
  | cons rule rest ih =>
    rw [selected, entriesOf, List.flatMap_cons, List.flatMap_cons]
    refine List.Sublist.append ?_ ih
    split
    next h =>
      rcases entriesFor_eq_ok h with hnone | hall
      · rw [hnone]
        exact List.nil_sublist _
      · rw [hall]
    · exact List.nil_sublist _

/-- What is applied is selected; a failure ends it early. -/
theorem isPrefix_entries_orders (document : Document) (rules : List Json) :
    Order.entries (orders document rules) <+: selected document rules := by
  induction rules with
  | nil => exact List.nil_prefix
  | cons rule rest ih =>
    rw [orders, selected, List.flatMap_cons]
    split
    next h =>
      rw [Order.entries_append, entries_orderOf]
      exact (List.prefix_append_right_inj _).mpr ih
    · exact List.nil_prefix

/-- Without a failure all that is selected is applied. -/
theorem entries_orders {document : Document} {rules : List Json}
    (h : ∀ fault, .fail fault ∉ orders document rules) :
    Order.entries (orders document rules) = selected document rules := by
  induction rules with
  | nil => rfl
  | cons rule rest ih =>
    rw [orders] at h ⊢
    rw [selected, List.flatMap_cons]
    split at h
    · rw [Order.entries_append, entries_orderOf, ih fun fault hmem =>
        h fault (List.mem_append_right _ hmem)]
      rfl
    next fault _ => exact absurd List.mem_cons_self (h fault)

theorem mem_entriesOf_of_order {document : Document} {rules : List Json} {x : Entry}
    (h : .apply x ∈ orders document rules) : x ∈ entriesOf rules :=
  (selected_sublist document rules).subset
    ((isPrefix_entries_orders document rules).subset (Order.mem_entries.mpr h))

/-- The looks that a document can get are some of those of the rules. -/
theorem looks_orders_sublist (document : Document) (rules : List Json) :
    (Order.looks (orders document rules)).Sublist (looksOf rules) := by
  rw [Order.looks_eq]
  exact ((isPrefix_entries_orders document rules).sublist.trans
    (selected_sublist document rules)).flatMap _

theorem looks_subset {rules : List Json} {x : Entry} (h : x ∈ entriesOf rules)
    {d : String × Look} (hd : d ∈ x.looks) : d ∈ looksOf rules :=
  List.mem_flatMap.mpr ⟨x, h, hd⟩

/-! ## Applying rules -/

/-- Applying entries is obeying the orders for them. -/
theorem applyEntries_eq (caretStyle : String) (entries : List Json) :
    applyEntries caretStyle entries = Masking.obey caretStyle (entries.map orderOf) := by
  induction entries with
  | nil => rfl
  | cons entry rest ih =>
    rw [applyEntries, List.map_cons, ih]
    unfold orderOf
    cases readEntry entry with
    | ok read => simp only [Masking.obey, pure_bind]
    | error fault =>
      cases fault with
      | mask cause => simp only [Masking.obey, pure_bind]
      | _ => rfl

/-- Applying rules is doing what is to be done about the entries of those that select the document.
-/
theorem applyRules_eq (document : Document) (caretStyle : String) (rules : List Json) :
    applyRules document caretStyle rules =
      Masking.obey caretStyle (orders document rules) := by
  induction rules with
  | nil => rfl
  | cons rule rest ih =>
    rw [applyRules, orders, ih]
    -- a rule that cannot be read ends it, so there is nothing to be done about later ones
    cases entriesFor document rule with
    | error fault => rfl
    | ok entries =>
      simp only [Step.ofExcept, pure_bind]
      rw [Masking.obey_append, applyEntries_eq]

end Session

end Conceal
