import Conceal.Proofs.Grammar.Discovery
import Conceal.Proofs.Grammar.Includes

/-!
What is met as a grammar is read, whatever its description says. A description is a series of items:
patterns, references to entries of the repository, and flaws. They are met one by one, those of an
entry where it is referred to first, until one of them stops the reading. Where all is in order but
for circles of includes, this is a walk through the entries. Main statement: `Trail.walk`.
-/

namespace Conceal

namespace Grammar

namespace Build

/-- What is met, one after the other, as a description is read. -/
inductive Item where
  /-- A pattern of a rule; `what` names it. -/
  | pattern (what text : String)
  /-- Something for which the grammar is refused. -/
  | flaw (cause : GrammarFault)
  /-- A reference to an entry of the repository. -/
  | entry (key : String)

/-- The entry that an item refers to. -/
def Item.key? : Item → Option String
  | .entry key => some key
  | _ => none

/-! ## The items of a description -/

/-- A value that should be a pattern. -/
def patternItem (what : String) : Json → Item
  | .str text => .pattern what text
  | _ => .flaw (.patternNotText what)

/-- The value that should end a block; its references back are replaced. -/
def endItem : Json → Item
  | .str ending => .pattern "end" (withoutReferences ending)
  | _ => .flaw .beginWithoutEnd

/-- The patterns of a rule. -/
def patternItems (members : Json.Members) : List Item :=
  match members.get? "match", members.get? "begin" with
  | some text, _ => [patternItem "match" text]
  | none, some text => [patternItem "begin" text, endItem (members.get "end")]
  | none, none => []

/-- A value that should be a reference. -/
def referenceItems : Json → List Item
  | .str text =>
    if text = "" then [.flaw .includeNotText] else (keyOf? (.str text)).toList.map .entry
  | _ => [.flaw .includeNotText]

mutual

/-- The items of a rule. -/
def items : Json → List Item
  | .obj members =>
    match Json.Members.get? members "include" with
    | some reference => referenceItems reference
    | none => patternItems members ++ itemsInner members
  | _ => [.flaw .ruleNotObject]

/-- The items of the rules listed among the members of an object. -/
def itemsInner : List (String × Json) → List Item
  | [] => []
  | (key, value) :: rest => if key = "patterns" then itemsListed value else itemsInner rest

/-- The items of the rules in a list, which may be missing. -/
def itemsListed : Json → List Item
  | .null => []
  | .arr rules => itemsEach rules
  | _ => [.flaw .patternsNotList]

/-- The items of rules, one after the other. -/
def itemsEach : List Json → List Item
  | [] => []
  | rule :: rest => items rule ++ itemsEach rest

end

private theorem key?_patternItem (what : String) (value : Json) :
    (patternItem what value).key? = none := by
  cases value <;> rfl

private theorem key?_endItem (value : Json) : (endItem value).key? = none := by
  cases value <;> rfl

/-- Patterns refer to no entry. -/
private theorem keys_patternItems (members : Json.Members) :
    (patternItems members).filterMap Item.key? = [] := by
  unfold patternItems
  split <;> simp [key?_patternItem, key?_endItem]

/-- An include refers to the entry that it names, if any. -/
private theorem keys_referenceItems (reference : Json) :
    (referenceItems reference).filterMap Item.key? = (keyOf? reference).toList := by
  cases reference with
  | str text =>
    unfold referenceItems
    dsimp only
    split
    next htext =>
      subst htext
      rfl
    next => cases keyOf? (.str text) <;> rfl
  | _ => rfl

-- the items that are references are the includes, in the same order
mutual

/-- The entries that a rule refers to are those that it includes. -/
theorem keys_items : ∀ value : Json, (items value).filterMap Item.key? = includes value
  | .obj members => by
    unfold items includes
    cases Json.Members.get? members "include" with
    | some reference => exact keys_referenceItems reference
    | none => simp [keys_patternItems, keys_itemsInner members]
  | .null | .bool _ | .int _ | .float _ | .str _ | .arr _ => by unfold items includes; rfl

/-- So it is for the rules in a description. -/
theorem keys_itemsInner : ∀ members : List (String × Json),
    (itemsInner members).filterMap Item.key? = includesInner members
  | [] => by unfold itemsInner includesInner; rfl
  | (key, value) :: rest => by
    unfold itemsInner includesInner
    split
    · exact keys_itemsListed value
    · exact keys_itemsInner rest

/-- So it is for a list. -/
theorem keys_itemsListed : ∀ value : Json,
    (itemsListed value).filterMap Item.key? = includesListed value
  | .arr rules => by
    unfold itemsListed includesListed
    exact keys_itemsEach rules
  | .null | .bool _ | .int _ | .float _ | .str _ | .obj _ => by
    unfold itemsListed includesListed; rfl

/-- So it is for rules one after the other. -/
theorem keys_itemsEach : ∀ rules : List Json,
    (itemsEach rules).filterMap Item.key? = includesEach rules
  | [] => by unfold itemsEach includesEach; rfl
  | rule :: rest => by
    unfold itemsEach includesEach
    rw [List.filterMap_append, keys_items rule, keys_itemsEach rest]

end

/-- An item does not stop the reading, unless as a reference. -/
def Item.Fine : Item → Prop
  | .pattern _ text => Compiles (.str text)
  | .flaw _ => False
  | .entry _ => True

/-- A pattern that compiles stops nothing. -/
private theorem fine_patternItem {value : Json} (h : Compiles value) (what : String) :
    (patternItem what value).Fine := by
  obtain ⟨text, r, rfl, hcompile⟩ := h
  exact ⟨text, r, rfl, hcompile⟩

/-- Nor do the patterns of a rule that can be read. -/
private theorem fine_patternItems {members : Json.Members} (h : Readable members) :
    ∀ item ∈ patternItems members, item.Fine := by
  unfold Readable at h
  unfold patternItems
  split
  next hmatch =>
    rw [hmatch] at h
    simpa using fine_patternItem h "match"
  next hmatch hbegin =>
    rw [hmatch, hbegin] at h
    obtain ⟨hopening, ending, hending, hclosing⟩ := h
    rw [hending]
    simpa using ⟨fine_patternItem hopening "begin", hclosing⟩
  next => simp

-- what is in order has fine items only
mutual

/-- A rule in order can only be stopped by an entry that it refers to. -/
theorem fine_items : ∀ value : Json, Valid value → ∀ item ∈ items value, item.Fine
  | .obj members, hvalid => by
    unfold Valid at hvalid
    unfold items
    cases hinclude : Json.Members.get? members "include" with
    | some reference =>
      rw [hinclude] at hvalid
      obtain ⟨text, rfl, htext⟩ := hvalid
      simp [referenceItems, htext, Item.Fine]
    | none =>
      rw [hinclude] at hvalid
      simp only [List.mem_append]
      rintro item (hitem | hitem)
      · exact fine_patternItems hvalid.1 item hitem
      · exact fine_itemsInner members hvalid.2 item hitem
  | .null, hvalid | .bool _, hvalid | .int _, hvalid | .float _, hvalid | .arr _, hvalid
  | .str _, hvalid => by unfold Valid at hvalid; exact hvalid.elim

/-- So can the rules in a description. -/
theorem fine_itemsInner : ∀ members : List (String × Json), ValidInner members →
    ∀ item ∈ itemsInner members, item.Fine
  | [], _ => by unfold itemsInner; simp
  | (key, value) :: rest, hvalid => by
    unfold ValidInner at hvalid
    unfold itemsInner
    split
    next hkey =>
      rw [if_pos hkey] at hvalid
      exact fine_itemsListed value hvalid
    next hkey =>
      rw [if_neg hkey] at hvalid
      exact fine_itemsInner rest hvalid

/-- So can a list. -/
theorem fine_itemsListed : ∀ value : Json, ValidListed value →
    ∀ item ∈ itemsListed value, item.Fine
  | .null, _ => by unfold itemsListed; simp
  | .arr rules, hvalid => by
    unfold ValidListed at hvalid
    unfold itemsListed
    exact fine_itemsEach rules hvalid
  | .obj _, hvalid | .bool _, hvalid | .int _, hvalid | .float _, hvalid | .str _, hvalid => by
    unfold ValidListed at hvalid; exact hvalid.elim

/-- So can rules one after the other. -/
theorem fine_itemsEach : ∀ rules : List Json, ValidEach rules →
    ∀ item ∈ itemsEach rules, item.Fine
  | [], _ => by unfold itemsEach; simp
  | rule :: rest, hvalid => by
    unfold ValidEach at hvalid
    unfold itemsEach
    simp only [List.mem_append]
    rintro item (hitem | hitem)
    · exact fine_items rule hvalid.1 item hitem
    · exact fine_itemsEach rest hvalid.2 item hitem

end

/-! ## Meeting the items -/

/-- Why the reading of a grammar stops. -/
inductive Stop where
  /-- A pattern does not compile. -/
  | pattern (what text : String) (fault : Regex.Fault)
  /-- The grammar is refused. -/
  | flaw (cause : GrammarFault)

/-- What goes wrong where reading stops. -/
def Stop.fault (source : String) : Stop → Fault
  | .pattern what text e => Fault.ofPattern (.grammar source (.badPattern what text)) e
  | .flaw cause => .grammar source cause

/-- Items are met one by one: `around` holds the entries that are being read, and `seen` those that
were met before. All are met, and then these are the entries met in the end, or the reading stops.
-/
inductive Trail (entries : Json.Members) :
    List String → List String → List Item → Except Stop (List String) → Prop
  | nil {around seen : List String} : Trail entries around seen [] (.ok seen)
  | pattern {around seen : List String} {what text : String} {r : Regex} {rest : List Item}
      {found : Except Stop (List String)} (hcompile : Regex.compile text = .ok r)
      (hrest : Trail entries around seen rest found) :
      Trail entries around seen (.pattern what text :: rest) found
  | refused {around seen : List String} {what text : String} {e : Regex.Fault} {rest : List Item}
      (hcompile : Regex.compile text = .error e) :
      Trail entries around seen (.pattern what text :: rest) (.error (.pattern what text e))
  | flaw {around seen : List String} {cause : GrammarFault} {rest : List Item} :
      Trail entries around seen (.flaw cause :: rest) (.error (.flaw cause))
  | unknown {around seen : List String} {key : String} {rest : List Item} (hnew : key ∉ seen)
      (hentry : entries.get? key = none) : Trail entries around seen (.entry key :: rest)
        (.error (.flaw (.unknownInclude ("#" ++ key))))
  | old {around seen : List String} {key : String} {rest : List Item}
      {found : Except Stop (List String)} (hseen : key ∈ seen)
      (hfree : ¬ (key ∈ around ∧ IsLink entries key))
      (hrest : Trail entries around seen rest found) :
      Trail entries around seen (.entry key :: rest) found
  | new {around seen mid : List String} {key : String} {value : Json} {rest : List Item}
      {found : Except Stop (List String)} (hnew : key ∉ seen)
      (hentry : entries.get? key = some value)
      (hinner : Trail entries (key :: around) (seen ++ [key]) (items value) (.ok mid))
      (hrest : Trail entries around mid rest found) :
      Trail entries around seen (.entry key :: rest) found
  | inner {around seen : List String} {key : String} {value : Json} {rest : List Item} {stop : Stop}
      (hnew : key ∉ seen) (hentry : entries.get? key = some value)
      (hinner : Trail entries (key :: around) (seen ++ [key]) (items value) (.error stop)) :
      Trail entries around seen (.entry key :: rest) (.error stop)
  | circle {around seen : List String} {key : String} {rest : List Item} (hseen : key ∈ seen)
      (haround : key ∈ around) (hlink : IsLink entries key) :
      Trail entries around seen (.entry key :: rest)
        (.error (.flaw (.circularInclude ("#" ++ key))))

/-- Entries are there and in order, and so is all that they refer to. -/
structure InOrder (entries : Json.Members) (S : String → Prop) : Prop where
  valid : ∀ key, S key → ∃ value, entries.get? key = some value ∧ Valid value
  closed : ∀ key, S key → ∀ next ∈ refersTo entries key, S next

/-- An entry in order refers to what its items refer to. -/
theorem InOrder.refers {entries : Json.Members} {S : String → Prop} (h : InOrder entries S)
    {key : String} (hkey : S key) {value : Json} (hentry : entries.get? key = some value) :
    refersTo entries key = (items value).filterMap Item.key? ∧ Valid value := by
  obtain ⟨value', hentry', hvalid⟩ := h.valid key hkey
  cases hentry.symm.trans hentry'
  refine ⟨?_, hvalid⟩
  simp only [refersTo, hentry, keys_items]

namespace Trail

variable {entries : Json.Members} {around seen seen' mid : List String} {todo more : List Item}
  {found : Except Stop (List String)} {stop : Stop}

/-- Entries that were met stay met, in their order. -/
theorem grows (h : Trail entries around seen todo found) (hfound : found = .ok seen') :
    seen <+: seen' := by
  induction h generalizing seen' with
  | nil =>
    cases hfound
    exact List.prefix_refl _
  | pattern _ _ ih => exact ih hfound
  | old _ _ _ ih => exact ih hfound
  | new _ _ _ _ ihinner ihrest =>
    exact ((List.prefix_append _ _).trans (ihinner rfl)).trans (ihrest hfound)
  | _ => cases hfound

/-- A trail goes on where the first part of it has ended. -/
theorem append {first : Except Stop (List String)} (h : Trail entries around seen todo first)
    (hfirst : first = .ok mid) (hmore : Trail entries around mid more found) :
    Trail entries around seen (todo ++ more) found := by
  induction h with
  | nil =>
    cases hfirst
    exact hmore
  | pattern hcompile _ ih => exact .pattern hcompile (ih hfirst hmore)
  | old hseen hfree _ ih => exact .old hseen hfree (ih hfirst hmore)
  | new hnew hentry hinner _ _ ih => exact .new hnew hentry hinner (ih hfirst hmore)
  | _ => cases hfirst

/-- What comes after the item that stops a trail does not matter. -/
theorem append_stopped (h : Trail entries around seen todo found) (hfound : found = .error stop)
    (more : List Item) : Trail entries around seen (todo ++ more) (.error stop) := by
  induction h with
  | nil => cases hfound
  | pattern hcompile _ ih => exact .pattern hcompile (ih hfound)
  | refused hcompile =>
    cases hfound
    exact .refused hcompile
  | flaw =>
    cases hfound
    exact .flaw
  | unknown hnew hentry =>
    cases hfound
    exact .unknown hnew hentry
  | old hseen hfree _ ih => exact .old hseen hfree (ih hfound)
  | new hnew hentry hinner _ _ ih => exact .new hnew hentry hinner (ih hfound)
  | inner hnew hentry hinner =>
    cases hfound
    exact .inner hnew hentry hinner
  | circle hseen haround hlink =>
    cases hfound
    exact .circle hseen haround hlink

/-- What is met is determined. -/
theorem unique (h : Trail entries around seen todo found) {other : Except Stop (List String)}
    (h' : Trail entries around seen todo other) : found = other := by
  -- both walks look at the same item first, and its step is decided by what was seen before
  induction h generalizing other with
  | nil =>
    cases h'
    rfl
  | pattern hcompile _ ih =>
    cases h' with
    | pattern _ hrest => exact ih hrest
    | refused hcompile' => cases hcompile.symm.trans hcompile'
  | refused hcompile =>
    cases h' with
    | pattern hcompile' _ => cases hcompile.symm.trans hcompile'
    | refused hcompile' =>
      cases hcompile.symm.trans hcompile'
      rfl
  | flaw =>
    cases h'
    rfl
  | unknown hnew hentry =>
    cases h' with
    | unknown => rfl
    | old hseen _ _ => exact absurd hseen hnew
    | new _ hentry' _ _ => cases hentry.symm.trans hentry'
    | inner _ hentry' _ => cases hentry.symm.trans hentry'
    | circle hseen _ _ => exact absurd hseen hnew
  | old hseen hfree _ ih =>
    cases h' with
    | unknown hnew _ => exact absurd hseen hnew
    | old _ _ hrest => exact ih hrest
    | new hnew _ _ _ => exact absurd hseen hnew
    | inner hnew _ _ => exact absurd hseen hnew
    | circle _ haround hlink => exact absurd ⟨haround, hlink⟩ hfree
  | new hnew hentry _ _ ihinner ihrest =>
    cases h' with
    | unknown _ hentry' => cases hentry.symm.trans hentry'
    | old hseen _ _ => exact absurd hseen hnew
    | new _ hentry' hinner hrest =>
      cases hentry.symm.trans hentry'
      cases ihinner hinner
      exact ihrest hrest
    | inner _ hentry' hinner =>
      cases hentry.symm.trans hentry'
      cases ihinner hinner
    | circle hseen _ _ => exact absurd hseen hnew
  | inner hnew hentry _ ihinner =>
    cases h' with
    | unknown _ hentry' => cases hentry.symm.trans hentry'
    | old hseen _ _ => exact absurd hseen hnew
    | new _ hentry' hinner _ =>
      cases hentry.symm.trans hentry'
      cases ihinner hinner
    | inner _ hentry' hinner =>
      cases hentry.symm.trans hentry'
      exact congrArg _ (Except.error.inj (ihinner hinner))
    | circle hseen _ _ => exact absurd hseen hnew
  | circle hseen haround hlink =>
    cases h' with
    | unknown hnew _ => exact absurd hseen hnew
    | old _ hfree _ => exact absurd ⟨haround, hlink⟩ hfree
    | new hnew _ _ _ => exact absurd hseen hnew
    | inner hnew _ _ => exact absurd hseen hnew
    | circle => rfl

/-- Where all is in order, the items are met as in a walk through the entries, and nothing stops the
reading but a circle of includes. -/
theorem walk {S : String → Prop} (horder : InOrder entries S)
    (h : Trail entries around seen todo found) (hfine : ∀ item ∈ todo, item.Fine)
    (hkeys : ∀ key ∈ todo.filterMap Item.key?, S key) :
    Walk (refersTo entries) (IsLink entries) around seen (todo.filterMap Item.key?)
        found.toOption ∧
      ∀ stop, found = .error stop → ∃ key, stop = .flaw (.circularInclude ("#" ++ key)) := by
  induction h with
  | nil => exact ⟨.nil, fun _ h => nomatch h⟩
  | pattern _ _ ih =>
    rw [List.forall_mem_cons] at hfine
    exact ih hfine.2 hkeys
  | @refused _ _ what text e rest hcompile =>
    obtain ⟨text', r, htext, hcompile'⟩ := (List.forall_mem_cons.mp hfine).1
    cases htext
    cases hcompile.symm.trans hcompile'
  | flaw => exact ((List.forall_mem_cons.mp hfine).1).elim
  | unknown _ hentry =>
    obtain ⟨value, hentry', _⟩ := horder.valid _ (hkeys _ List.mem_cons_self)
    cases hentry.symm.trans hentry'
  | old hseen hfree _ ih =>
    obtain ⟨hwalk, hstop⟩ := ih (List.forall_mem_cons.mp hfine).2
      fun key hkey => hkeys key (List.mem_cons_of_mem _ hkey)
    exact ⟨.old hseen hfree hwalk, hstop⟩
  | @new _ _ _ key value _ _ hnew hentry _ _ ihinner ihrest =>
    -- its items are in order as well, and refer to what it refers to
    obtain ⟨hrefers, hvalid⟩ := horder.refers (hkeys key List.mem_cons_self) hentry
    obtain ⟨hinner, -⟩ := ihinner (fine_items value hvalid) (hrefers ▸ horder.closed key
      (hkeys key List.mem_cons_self))
    obtain ⟨hrest, hstop⟩ := ihrest (List.forall_mem_cons.mp hfine).2
      fun next hnext => hkeys next (List.mem_cons_of_mem _ hnext)
    exact ⟨.new hnew (hrefers ▸ hinner) hrest, hstop⟩
  | @inner _ _ key value _ _ hnew hentry _ ih =>
    obtain ⟨hrefers, hvalid⟩ := horder.refers (hkeys key List.mem_cons_self) hentry
    obtain ⟨hinner, hstop⟩ := ih (fine_items value hvalid) (hrefers ▸ horder.closed key
      (hkeys key List.mem_cons_self))
    refine ⟨.inner hnew (hrefers ▸ hinner), fun stop h => hstop stop ?_⟩
    exact congrArg _ (Except.error.inj h)
  | circle _ haround hlink =>
    exact ⟨.stopped haround hlink, fun stop h => ⟨_, (Except.error.inj h).symm⟩⟩

end Trail

end Build

end Grammar

end Conceal
