import Conceal.Proofs.Json.Keys
import Conceal.Proofs.Json.Spelling

/-!
Reading gives a value just when the text spells it, with blanks around it; whole numbers may not
have too many digits, and the words for infinity and for no number count as values. Main statement:
`parse_eq_ok_iff`.
-/

namespace Conceal.Json

open Reader

/-! ## What is read is spelled -/

/-- What is read as a value spells it. -/
def ValueSound (fuel : Nat) : Prop :=
  ∀ cs v rest, value fuel cs = .ok (v, rest) →
    ∃ text, cs = text ++ rest ∧ Spells .lenient v text

/-- What is read as the items of a list spells those that are new. -/
def ItemsSound (fuel : Nat) : Prop :=
  ∀ acc cs v rest, items fuel acc cs = .ok (v, rest) →
    ∃ text vs, cs = text ++ ']' :: rest ∧ SpellsItems .lenient vs text ∧
      v = .arr (acc.reverse ++ vs)

/-- What is read as the members of an object spells those that are new. -/
def MembersSound (fuel : Nat) : Prop :=
  ∀ acc cs v rest, members fuel acc cs = .ok (v, rest) →
    ∃ text ms, cs = text ++ '}' :: rest ∧ SpellsMembers .lenient ms text ∧
      v = ofMembers (acc.reverse ++ ms)

variable {d : Dialect} {fuel : Nat}

/-- Blanks before a value belong to its padding. -/
theorem SpellsPadded.blank_append {v : Json} {blank text : List Char} (hblank : Blank blank)
    (h : SpellsPadded d v text) : SpellsPadded d v (blank ++ text) := by
  cases h with
  | mk hbefore h hafter =>
    rw [← List.append_assoc]
    exact .mk (hblank.append hbefore) h hafter

theorem SpellsItems.blank_append {vs : List Json} {blank text : List Char} (hblank : Blank blank)
    (h : SpellsItems d vs text) : SpellsItems d vs (blank ++ text) := by
  cases h with
  | one h => exact .one (h.blank_append hblank)
  | cons h hrest =>
    rw [← List.append_assoc]
    exact .cons (h.blank_append hblank) hrest

theorem SpellsMember.blank_append {m : String × Json} {blank text : List Char}
    (hblank : Blank blank) (h : SpellsMember d m text) : SpellsMember d m (blank ++ text) := by
  cases h with
  | mk hbefore hkey hafter h =>
    rw [← List.append_assoc]
    exact .mk (hblank.append hbefore) hkey hafter h

theorem SpellsMembers.blank_append {ms : List (String × Json)} {blank text : List Char}
    (hblank : Blank blank) (h : SpellsMembers d ms text) : SpellsMembers d ms (blank ++ text) := by
  cases h with
  | one h => exact .one (h.blank_append hblank)
  | cons h hrest =>
    rw [← List.append_assoc]
    exact .cons (h.blank_append hblank) hrest

/-- A value that is read, and the blanks after it. -/
theorem ValueSound.padded (h : ValueSound fuel) {cs tail : List Char} {v : Json}
    (hvalue : value fuel cs = .ok (v, tail)) :
    ∃ text, cs = text ++ skipSpace tail ∧ SpellsPadded .lenient v text := by
  obtain ⟨text, rfl, hspells⟩ := h _ _ _ hvalue
  obtain ⟨after, hafter, heq⟩ := exists_blank tail
  refine ⟨[] ++ (text ++ after), ?_, .mk blank_nil hspells hafter⟩
  rw [List.nil_append, List.append_assoc, ← heq]

/-- Items that are read are spelled by the text that was taken, if values are. -/
private theorem itemsSound_succ (hvalue : ValueSound fuel) (hitems : ItemsSound fuel) :
    ItemsSound (fuel + 1) := by
  intro acc cs v rest h
  unfold items at h
  obtain ⟨⟨item, tail⟩, hitem, h⟩ := bind_eq_ok.mp h
  obtain ⟨text, hcs, htext⟩ := hvalue.padded hitem
  dsimp only at h
  split at h
  next hclose =>
    cases h
    exact ⟨text, [item], by rw [hcs, hclose], .one htext, by rw [List.reverse_cons]⟩
  next next hcomma =>
    obtain ⟨blank, hblank, hnext⟩ := exists_blank next
    obtain ⟨text', vs, htext', hvs, rfl⟩ := hitems _ _ _ _ h
    refine ⟨_, item :: vs, ?_, .cons htext (hvs.blank_append hblank), by simp⟩
    rw [hcs, hcomma, hnext, htext']
    simp
  · cases h

/-- Members that are read are spelled by the text that was taken, if values are. -/
private theorem membersSound_succ (hvalue : ValueSound fuel) (hmembers : MembersSound fuel) :
    MembersSound (fuel + 1) := by
  intro acc cs v rest h
  unfold members at h
  split at h
  · obtain ⟨⟨key, afterKey⟩, hkey, h⟩ := bind_eq_ok.mp h
    obtain ⟨body, us, rfl, hunits, rfl⟩ := units_of_stringBody hkey
    obtain ⟨blank, hblank, heq⟩ := exists_blank afterKey
    dsimp only at h
    -- after the key come its colon and the value, and then a comma or the end
    split at h
    next afterColon hcolon =>
      obtain ⟨⟨item, tail⟩, hitem, h⟩ := bind_eq_ok.mp h
      obtain ⟨before, hbefore, hafterColon⟩ := exists_blank afterColon
      obtain ⟨text, htext, hpadded⟩ := hvalue.padded hitem
      have hmember : SpellsMember .lenient (String.ofList (joined us), item)
          ([] ++ '"' :: (body ++ '"' :: (blank ++ ':' :: (before ++ text)))) :=
        .mk blank_nil hunits hblank (hpadded.blank_append hbefore)
      dsimp only at h
      split at h
      next hclose =>
        cases h
        refine ⟨_, [_], ?_, .one hmember, by simp⟩
        rw [heq, hcolon, hafterColon, htext, hclose]
        simp
      next next hcomma =>
        obtain ⟨blank', hblank', hnext⟩ := exists_blank next
        obtain ⟨text', ms, htext', hms, rfl⟩ := hmembers _ _ _ _ h
        refine ⟨_, _ :: ms, ?_, .cons hmember (hms.blank_append hblank'), by simp⟩
        rw [heq, hcolon, hafterColon, htext, hcomma, hnext, htext']
        simp
      · cases h
    · cases h
  · cases h

/-- A value that is read is spelled by the text that was taken; the cases are those of its first
character. -/
private theorem valueSound_succ (hitems : ItemsSound fuel) (hmembers : MembersSound fuel) :
    ValueSound (fuel + 1) := by
  intro cs v rest h
  unfold value at h
  split at h
  next tail =>
    obtain ⟨⟨s, tail⟩, hbody, h⟩ := bind_eq_ok.mp h
    obtain ⟨body, us, rfl, hunits, rfl⟩ := units_of_stringBody hbody
    cases h
    exact ⟨'"' :: (body ++ ['"']), by simp, .str hunits⟩
  next tail =>
    obtain ⟨blank, hblank, heq⟩ := exists_blank tail
    split at h
    next hclose =>
      cases h
      exact ⟨'{' :: (blank ++ ['}']), by rw [heq, hclose]; simp, .noMembers hblank⟩
    · obtain ⟨text, ms, htext, hms, rfl⟩ := hmembers _ _ _ _ h
      refine ⟨'{' :: (blank ++ text ++ ['}']), ?_, .obj (hms.blank_append hblank)⟩
      rw [heq, htext]
      simp
  next tail =>
    obtain ⟨blank, hblank, heq⟩ := exists_blank tail
    split at h
    next hclose =>
      cases h
      exact ⟨'[' :: (blank ++ [']']), by rw [heq, hclose]; simp, .noItems hblank⟩
    · obtain ⟨text, vs, htext, hvs, rfl⟩ := hitems _ _ _ _ h
      refine ⟨'[' :: (blank ++ text ++ [']']), ?_, .arr (hvs.blank_append hblank)⟩
      rw [heq, htext]
      simp
  -- the words, and then what is left: a number with a minus or without
  · cases h
    exact ⟨_, rfl, .null⟩
  · cases h
    exact ⟨_, rfl, .yes⟩
  · cases h
    exact ⟨_, rfl, .no⟩
  · cases h
    exact ⟨_, rfl, .nan rfl⟩
  · cases h
    exact ⟨_, rfl, .infinity rfl⟩
  · cases h
    exact ⟨_, rfl, .minusInfinity rfl⟩
  · obtain ⟨text, rfl, hspelled⟩ := spelled_of_number h
    exact ⟨'-' :: text, rfl, .minus hspelled⟩
  · obtain ⟨text, rfl, hspelled⟩ := spelled_of_number h
    exact ⟨text, rfl, .number hspelled⟩

/-- The readers call one another, each time with less fuel. -/
theorem readers_sound (fuel : Nat) : ValueSound fuel ∧ ItemsSound fuel ∧ MembersSound fuel := by
  induction fuel with
  | zero =>
    refine ⟨?_, ?_, ?_⟩
    · intro cs v rest h
      cases h
    · intro acc cs v rest h
      cases h
    · intro acc cs v rest h
      cases h
  | succ fuel ih =>
    obtain ⟨hvalue, hitems, hmembers⟩ := ih
    exact ⟨valueSound_succ hitems hmembers, itemsSound_succ hvalue hitems,
      membersSound_succ hvalue hmembers⟩

/-! ## What is spelled is read -/

/-- A value that is spelled is read, unless what follows goes on with it. -/
def ValueComplete (fuel : Nat) : Prop :=
  ∀ v text rest, Spells .lenient v text → 2 * text.length ≤ fuel → Closed rest →
    value fuel (text ++ rest) = .ok (v, rest)

/-- Items that are spelled are read up to the end of their list. -/
def ItemsComplete (fuel : Nat) : Prop :=
  ∀ acc vs text rest, SpellsItems .lenient vs text → 2 * text.length + 1 ≤ fuel →
    items fuel acc (skipSpace (text ++ ']' :: rest)) = .ok (.arr (acc.reverse ++ vs), rest)

/-- Members that are spelled are read up to the end of their object. -/
def MembersComplete (fuel : Nat) : Prop :=
  ∀ acc ms text rest, SpellsMembers .lenient ms text → 2 * text.length + 1 ≤ fuel →
    members fuel acc (skipSpace (text ++ '}' :: rest)) = .ok (ofMembers (acc.reverse ++ ms), rest)

private theorem closed_nil : Closed [] := fun _ h => by cases h

theorem closed_cons (c : Char) (cs : List Char)
    (h : c.isDigit = false ∧ c ≠ '.' ∧ c ≠ 'e' ∧ c ≠ 'E') : Closed (c :: cs) := by
  intro c' hc'
  obtain rfl := Option.some.inj hc'
  exact h

/-- A number may be closed by blanks. -/
theorem Blank.closed_append {blank rest : List Char} (h : Blank blank) (hrest : Closed rest) :
    Closed (blank ++ rest) := by
  cases blank with
  | nil => exact hrest
  | cons c blank =>
    refine closed_cons c _ ?_
    rcases h c List.mem_cons_self with rfl | rfl | rfl | rfl <;> decide

/-- A whole part begins with a digit. -/
theorem Whole.first {whole : List Char} (h : Whole whole) :
    ∃ c cs, whole = c :: cs ∧ c.isDigit = true := by
  cases h with
  | zero => exact ⟨_, _, rfl, rfl⟩
  | digits h =>
    obtain ⟨hne, hds⟩ := h
    cases whole with
    | nil => exact absurd rfl hne
    | cons c cs => exact ⟨c, cs, rfl, hds c List.mem_cons_self⟩

/-- A number begins with a digit, after its sign. -/
theorem Spelled.first {negative : Bool} {text : List Char} {v : Json}
    (h : Spelled d negative text v) : ∃ c cs, text = c :: cs ∧ c.isDigit = true := by
  cases h with
  | int hwhole => exact hwhole.first
  | float hwhole =>
    obtain ⟨c, cs, rfl, hc⟩ := hwhole.first
    exact ⟨c, _, rfl, hc⟩

/-- A value begins with neither a blank nor the end of a list. -/
theorem Spells.first {v : Json} {text : List Char} (h : Spells d v text) :
    ∃ c cs, text = c :: cs ∧ isSpace c = false ∧ c ≠ ']' := by
  cases h with
  | number h =>
    obtain ⟨c, cs, rfl, hc⟩ := h.first
    refine ⟨c, cs, rfl, ?_, ?_⟩
    · rw [← Bool.not_eq_true, isSpace_iff]
      rintro (rfl | rfl | rfl | rfl) <;> cases hc
    · rintro rfl
      cases hc
  | _ => exact ⟨_, _, rfl, by decide, by decide⟩

/-- A value begins with no bracket that closes, so that a list with it is not taken for an empty
one. -/
theorem SpellsPadded.first {v : Json} {text : List Char} (h : SpellsPadded d v text)
    (rest : List Char) : ∃ c cs, skipSpace (text ++ rest) = c :: cs ∧ c ≠ ']' := by
  cases h with
  | @mk _ _ _ after hbefore h =>
    obtain ⟨c, cs, rfl, hc, hne⟩ := h.first
    refine ⟨c, cs ++ (after ++ rest), ?_, hne⟩
    rw [List.append_assoc, skipSpace_append hbefore, List.append_assoc, List.cons_append,
      skipSpace_cons hc]

theorem SpellsItems.first {vs : List Json} {text : List Char} (h : SpellsItems d vs text)
    (rest : List Char) : ∃ c cs, skipSpace (text ++ rest) = c :: cs ∧ c ≠ ']' := by
  cases h with
  | one h => exact h.first rest
  | cons h =>
    rw [List.append_assoc]
    exact h.first _

/-- A member begins with the quote of its key. -/
theorem SpellsMember.first {m : String × Json} {text : List Char} (h : SpellsMember d m text)
    (rest : List Char) : ∃ cs, skipSpace (text ++ rest) = '"' :: cs := by
  cases h with
  | mk hbefore =>
    rw [List.append_assoc, skipSpace_append hbefore]
    exact ⟨_, skipSpace_cons (by decide) _⟩

theorem SpellsMembers.first {ms : List (String × Json)} {text : List Char}
    (h : SpellsMembers d ms text) (rest : List Char) :
    ∃ cs, skipSpace (text ++ rest) = '"' :: cs := by
  cases h with
  | one h => exact h.first rest
  | cons h =>
    rw [List.append_assoc]
    exact h.first _

/-- A padded value is read, and with it maybe some of the blanks that follow. -/
theorem ValueComplete.padded (h : ValueComplete fuel) {v : Json} {text rest : List Char}
    (hpadded : SpellsPadded .lenient v text) (hfuel : 2 * text.length ≤ fuel)
    (hrest : Closed rest) : ∃ tail, value fuel (skipSpace (text ++ rest)) = .ok (v, tail) ∧
      skipSpace tail = skipSpace rest := by
  cases hpadded with
  | @mk _ before text after hbefore hspells hafter =>
    obtain ⟨c, cs, rfl, hc, _⟩ := hspells.first
    simp only [List.length_append] at hfuel
    refine ⟨after ++ rest, ?_, skipSpace_append hafter rest⟩
    rw [List.append_assoc, skipSpace_append hbefore, List.append_assoc, List.cons_append,
      skipSpace_cons hc]
    exact h v _ _ hspells (by omega) (hafter.closed_append hrest)

/-- Items that a text spells are read from it, if values are. -/
private theorem itemsComplete_succ (hvalue : ValueComplete fuel) (hitems : ItemsComplete fuel) :
    ItemsComplete (fuel + 1) := by
  intro acc vs text rest h hfuel
  cases h with
  | one h =>
    obtain ⟨tail, hread, htail⟩ := hvalue.padded h (by omega) (closed_cons ']' rest (by decide))
    rw [skipSpace_cons (by decide)] at htail
    unfold items
    simp only [hread, bind, Except.bind, htail]
    simp [pure, Except.pure]
  | @cons v vs text others h hrest =>
    simp only [List.length_append, List.length_cons] at hfuel
    obtain ⟨tail, hread, htail⟩ := hvalue.padded h (by omega)
      (closed_cons ',' (others ++ ']' :: rest) (by decide))
    rw [skipSpace_cons (by decide)] at htail
    have hothers := hitems (v :: acc) vs others rest hrest (by omega)
    unfold items
    rw [List.append_assoc, List.cons_append]
    simp only [hread, bind, Except.bind, htail, hothers]
    simp

/-- The key of a member is read, and then its value. -/
theorem ValueComplete.member (h : ValueComplete fuel) {m : String × Json} {text rest : List Char}
    (hmember : SpellsMember .lenient m text) (hfuel : 2 * text.length ≤ fuel)
    (hrest : Closed rest) : ∃ cs afterKey afterColon tail,
      skipSpace (text ++ rest) = '"' :: cs ∧
      stringBody (cs.length + 1) [] cs = .ok (m.1, afterKey) ∧
      skipSpace afterKey = ':' :: afterColon ∧
      value fuel (skipSpace afterColon) = .ok (m.2, tail) ∧ skipSpace tail = skipSpace rest := by
  cases hmember with
  | @mk v before body after text us hbefore hkey hafter hpadded =>
    simp only [List.length_append, List.length_cons] at hfuel
    obtain ⟨tail, hread, htail⟩ := h.padded hpadded (by omega) hrest
    refine ⟨body ++ '"' :: (after ++ ':' :: (text ++ rest)), _, _, tail, ?_,
      stringBody_of_units hkey (by rw [List.length_append]; omega) _, ?_, hread, htail⟩
    · rw [List.append_assoc, skipSpace_append hbefore]
      simp only [List.cons_append, List.append_assoc]
      exact skipSpace_cons (by decide) _
    · rw [skipSpace_append hafter]
      exact skipSpace_cons (by decide) _

/-- A member and its comma are read off, with the rest of the members still to come. -/
theorem ValueComplete.members_cons (h : ValueComplete fuel) {m : String × Json}
    {text rest : List Char} (hmember : SpellsMember .lenient m text)
    (hfuel : 2 * text.length ≤ fuel) (acc : List (String × Json)) :
    members (fuel + 1) acc (skipSpace (text ++ ',' :: rest)) =
      members fuel (m :: acc) (skipSpace rest) := by
  obtain ⟨cs, afterKey, afterColon, tail, htext, hkey, hcolon, hread, htail⟩ :=
    h.member hmember hfuel (closed_cons ',' rest (by decide))
  rw [skipSpace_cons (by decide)] at htail
  rw [htext]
  conv_lhs => unfold members
  simp only [hkey, bind, Except.bind, hcolon, hread, htail]

/-- Members that a text spells are read from it, if values are. -/
private theorem membersComplete_succ (hvalue : ValueComplete fuel)
    (hmembers : MembersComplete fuel) : MembersComplete (fuel + 1) := by
  intro acc ms text rest h hfuel
  cases h with
  | one h =>
    obtain ⟨cs, afterKey, afterColon, tail, htext, hkey, hcolon, hread, htail⟩ :=
      hvalue.member h (by omega) (closed_cons '}' rest (by decide))
    rw [skipSpace_cons (by decide)] at htail
    rw [htext]
    unfold members
    simp only [hkey, bind, Except.bind, hcolon, hread, htail]
    simp [pure, Except.pure]
  | @cons m ms text others h hrest =>
    simp only [List.length_append, List.length_cons] at hfuel
    rw [List.append_assoc, List.cons_append, hvalue.members_cons h (by omega),
      hmembers (m :: acc) ms others rest hrest (by omega)]
    simp

/-- A member whose value is refused is refused. -/
theorem members_of_error {body after rest : List Char} {us : List Nat} {fault : ReadFault}
    (hkey : Units body us) (hafter : Blank after)
    (hvalue : value fuel (skipSpace rest) = .error fault) (acc : List (String × Json)) :
    members (fuel + 1) acc ('"' :: (body ++ '"' :: (after ++ ':' :: rest))) = .error fault := by
  have hread : stringBody ((body ++ '"' :: (after ++ ':' :: rest)).length + 1) []
      (body ++ '"' :: (after ++ ':' :: rest)) =
        .ok (String.ofList (joined us), after ++ ':' :: rest) :=
    stringBody_of_units hkey (by rw [List.length_append]; omega) _
  have hcolon : skipSpace (after ++ ':' :: rest) = ':' :: rest :=
    (skipSpace_append hafter _).trans (skipSpace_cons (by decide) rest)
  unfold members
  simp only [hread, bind, Except.bind, hcolon, hvalue]

/-- A number does not begin as anything else does. -/
theorem value_digit {c : Char} (hc : c.isDigit = true) (fuel : Nat) (cs : List Char) :
    value (fuel + 1) (c :: cs) = number false (c :: cs) := by
  unfold value
  split
  case h_11 => rfl
  all_goals
    rename_i heq
    cases heq
    cases hc

/-- A minus before a digit begins a number, and none of the names. -/
private theorem value_minus_digit {c : Char} (hc : c.isDigit = true) (fuel : Nat) (cs : List Char) :
    value (fuel + 1) ('-' :: c :: cs) = number true (c :: cs) := by
  unfold value
  split
  case h_9 heq =>
    cases heq
    cases hc
  case h_10 heq =>
    cases heq
    rfl
  case h_11 hminus => exact absurd rfl (hminus _)
  all_goals
    rename_i heq
    cases heq

/-- A bracket that closes at once gives the empty list. -/
private theorem value_noItems {cs rest : List Char} (h : skipSpace cs = ']' :: rest) :
    value (fuel + 1) ('[' :: cs) = .ok (.arr [], rest) := by
  unfold value
  simp only [h]

/-- Anything else after the bracket begins the first item. -/
private theorem value_items {c : Char} {cs rest : List Char} (h : skipSpace cs = c :: rest)
    (hc : c ≠ ']') : value (fuel + 1) ('[' :: cs) = items fuel [] (c :: rest) := by
  unfold value
  simp only [h]
  split
  next heq =>
    cases heq
    exact absurd rfl hc
  · rfl

private theorem value_noMembers {cs rest : List Char} (h : skipSpace cs = '}' :: rest) :
    value (fuel + 1) ('{' :: cs) = .ok (.obj [], rest) := by
  unfold value
  simp only [h]

/-- A quote after the brace begins the first member. -/
theorem value_members {cs rest : List Char} (h : skipSpace cs = '"' :: rest) :
    value (fuel + 1) ('{' :: cs) = members fuel [] ('"' :: rest) := by
  unfold value
  simp only [h]
  split
  next heq => cases heq
  · rfl

/-- A value that a text spells is read from it, by the kind of the value. -/
private theorem valueComplete_succ (hitems : ItemsComplete fuel) (hmembers : MembersComplete fuel) :
    ValueComplete (fuel + 1) := by
  intro v text rest h hfuel hrest
  cases h with
  | null => rfl
  | yes => rfl
  | no => rfl
  | nan => rfl
  | infinity => rfl
  | minusInfinity => rfl
  | number h =>
    obtain ⟨c, cs, rfl, hc⟩ := h.first
    rw [List.cons_append, value_digit hc]
    exact number_of_spelled h hrest
  | minus h =>
    obtain ⟨c, cs, rfl, hc⟩ := h.first
    rw [List.cons_append, List.cons_append, value_minus_digit hc]
    exact number_of_spelled h hrest
  | @str body us h =>
    -- the body of a string has its own fuel, of one more than what is left
    have hbody : stringBody ((body ++ '"' :: rest).length + 1) [] (body ++ '"' :: rest) =
        .ok (String.ofList (joined us), rest) :=
      stringBody_of_units h (by rw [List.length_append]; omega) rest
    rw [List.cons_append, List.append_assoc]
    exact bind_eq_ok.mpr ⟨_, hbody, rfl⟩
  | noItems h =>
    rw [List.cons_append, List.append_assoc]
    exact value_noItems ((skipSpace_append h _).trans (skipSpace_cons (by decide) rest))
  | arr h =>
    simp only [List.length_append, List.length_cons, List.length_nil] at hfuel
    -- the first item must not look like the end of the list
    obtain ⟨c, cs, hfirst, hne⟩ := h.first (']' :: rest)
    rw [List.cons_append, List.append_assoc, List.singleton_append, value_items hfirst hne,
      ← hfirst]
    exact hitems [] _ _ rest h (by omega)
  | noMembers h =>
    rw [List.cons_append, List.append_assoc]
    exact value_noMembers ((skipSpace_append h _).trans (skipSpace_cons (by decide) rest))
  | obj h =>
    simp only [List.length_append, List.length_cons, List.length_nil] at hfuel
    obtain ⟨cs, hfirst⟩ := h.first ('}' :: rest)
    rw [List.cons_append, List.append_assoc, List.singleton_append, value_members hfirst, ← hfirst]
    exact hmembers [] _ _ rest h (by omega)

/-- So much fuel is enough that the readers can call one another. -/
theorem readers_complete (fuel : Nat) :
    ValueComplete fuel ∧ ItemsComplete fuel ∧ MembersComplete fuel := by
  induction fuel with
  | zero =>
    refine ⟨?_, ?_, ?_⟩
    · intro v text rest h hfuel
      obtain ⟨c, cs, rfl, -⟩ := h.first
      simp at hfuel
    · intro acc vs text rest h hfuel
      omega
    · intro acc ms text rest h hfuel
      omega
  | succ fuel ih =>
    obtain ⟨hvalue, hitems, hmembers⟩ := ih
    exact ⟨valueComplete_succ hitems hmembers, itemsComplete_succ hvalue hitems,
      membersComplete_succ hvalue hmembers⟩

/-! ## Texts of values -/

/-- Does a text spell a value, with blanks around it as it likes? -/
def TextOf (d : Dialect) (v : Json) (s : String) : Prop := SpellsPadded d v s.toList

/-- A text is read as a value just when it spells it. -/
theorem parse_eq_ok_iff {s : String} {v : Json} : parse s = .ok v ↔ TextOf .lenient v s := by
  constructor
  · intro h
    obtain ⟨⟨found, rest⟩, hvalue, h⟩ := bind_eq_ok.mp h
    obtain ⟨before, hbefore, heq⟩ := exists_blank s.toList
    obtain ⟨text, htext, hspells⟩ := (readers_sound _).1.padded hvalue
    dsimp only at h
    split at h
    next hempty =>
      cases h
      rw [List.isEmpty_iff.mp hempty, List.append_nil] at htext
      rw [TextOf, heq, htext]
      exact hspells.blank_append hbefore
    · cases h
  · intro h
    obtain ⟨tail, hread, htail⟩ :=
      (readers_complete (2 * s.toList.length + 2)).1.padded h (by omega) closed_nil
    rw [List.append_nil] at hread
    refine bind_eq_ok.mpr ⟨_, hread, ?_⟩
    dsimp only
    rw [htail]
    rfl

/-! ## Texts without blanks -/

theorem Spells.padded {v : Json} {text : List Char} (h : Spells d v text) :
    SpellsPadded d v text := by
  have hpadded := SpellsPadded.mk blank_nil h blank_nil
  rwa [List.nil_append, List.append_nil] at hpadded

theorem Spells.member {v : Json} {text : List Char} (h : Spells d v text) (key : String)
    (hkey : key.toList.all isPlain = true) :
    SpellsMember d (key, v) ('"' :: (key.toList ++ '"' :: ':' :: text)) := by
  obtain ⟨hunits, hjoined⟩ := units_of_plain hkey
  have hmember := SpellsMember.mk blank_nil hunits blank_nil h.padded
  rwa [hjoined, String.ofList_toList] at hmember

end Conceal.Json
