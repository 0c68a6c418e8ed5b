import Conceal.Json.Reader
import Conceal.Text.Units
import Mathlib.Data.List.TakeDrop
import Mathlib.Data.List.TakeWhile

/-!
How values are written. A text spells a value when it is made up of the parts of the value in their
order, with blanks between them as they like. The parts that have no parts themselves are read here:
texts and numbers. Main statements: `units_of_stringBody`, `stringBody_of_units`,
`spelled_of_number`, `number_of_spelled`.
-/

namespace Conceal.Json

open Reader Text

/-! ## The notation -/

/-- What a notation allows besides its grammar: words for infinity and for no number, and whole
numbers of so many digits. -/
structure Dialect where
  words : Bool
  maxDigits : Option Nat

/-- The notation as such. -/
def Dialect.strict : Dialect := ⟨false, none⟩

/-- The notation that is read. -/
def Dialect.lenient : Dialect := ⟨true, some Number.maxDigits⟩

/-- Are all characters blanks? -/
def Blank (cs : List Char) : Prop := ∀ c ∈ cs, c = ' ' ∨ c = '\t' ∨ c = '\n' ∨ c = '\r'

/-- The units that stand between the quotes of a text: its characters as they are, unless they are
quotes, backslashes or controls, and escapes. -/
inductive Units : List Char → List Nat → Prop
  | nil : Units [] []
  | plain {c : Char} {cs : List Char} {us : List Nat} (hcontrol : 32 ≤ c.toNat) (hquote : c ≠ '"')
      (hbackslash : c ≠ '\\') (hrest : Units cs us) : Units (c :: cs) (c.toNat :: us)
  | short {e c : Char} {cs : List Char} {us : List Nat} (h : shortEscape? e = some c)
      (hrest : Units cs us) : Units ('\\' :: e :: cs) (c.toNat :: us)
  | numeric {digits cs : List Char} {u : Nat} {us : List Nat} (h : hex4 digits = some (u, []))
      (hrest : Units cs us) : Units ('\\' :: 'u' :: (digits ++ cs)) (u :: us)

/-- The character of a unit; a half of a pair that stands alone is none. -/
def scalar (u : Nat) : Char := if isHigh u || isLow u then '\ufffd' else Char.ofNat u

/-- The character of a pair. -/
def paired (high low : Nat) : Char :=
  Char.ofNat (0x10000 + (high - 0xd800) * 0x400 + (low - 0xdc00))

/-- The characters of units. -/
def joined : List Nat → List Char
  | [] => []
  | [u] => [scalar u]
  | u :: v :: rest =>
    if isHigh u && isLow v then paired u v :: joined rest else scalar u :: joined (v :: rest)

/-- Decimal digits, one or more. -/
def Digits (cs : List Char) : Prop := cs ≠ [] ∧ ∀ c ∈ cs, c.isDigit = true

/-- The values of digits. -/
def digitValues (cs : List Char) : List Nat := cs.map fun c => c.toNat - 48

/-- A whole number: a zero, or digits that do not begin with one. -/
inductive Whole : List Char → Prop
  | zero : Whole ['0']
  | digits {cs : List Char} (h : Digits cs) (hfirst : cs.head? ≠ some '0') : Whole cs

/-- The places of a number behind its point, if it has one. -/
inductive Places : List Char → List Char → Prop
  | none : Places [] []
  | some {places : List Char} (h : Digits places) : Places ('.' :: places) places

/-- A sign of an exponent, and whether it is a minus. -/
inductive Sign : List Char → Bool → Prop
  | none : Sign [] false
  | plus : Sign ['+'] false
  | minus : Sign ['-'] true

/-- The exponent of a number, if it has one. -/
inductive Power : List Char → Option Int → Prop
  | none : Power [] none
  | some {e : Char} {sign digits : List Char} {negative : Bool} (he : e = 'e' ∨ e = 'E')
      (hsign : Sign sign negative) (h : Digits digits) :
      Power (e :: (sign ++ digits))
        (some (Number.Exact.signed negative (Number.digitsValue (digitValues digits))))

/-- The float that a number with places or an exponent stands for. -/
def floatOf (negative : Bool) (whole places : List Char) (power : Option Int) : Json :=
  let x := Number.nearestFloat (Number.digitsValue (digitValues (whole ++ places)))
    (power.getD 0 - places.length)
  .float (if negative then -x else x)

/-- A number without its sign, and the value that it has with this one. -/
inductive Spelled (d : Dialect) (negative : Bool) : List Char → Json → Prop
  | int {whole : List Char} (hwhole : Whole whole) (hlimit : ∀ n ∈ d.maxDigits, whole.length ≤ n) :
      Spelled d negative whole
        (.int (Number.Exact.signed negative (Number.digitsValue (digitValues whole))))
  | float {whole point places exponent : List Char} {power : Option Int} (hwhole : Whole whole)
      (hplaces : Places point places) (hpower : Power exponent power)
      (h : places ≠ [] ∨ power.isSome = true) :
      Spelled d negative (whole ++ (point ++ exponent)) (floatOf negative whole places power)

mutual

/-- The texts of a value. -/
inductive Spells (d : Dialect) : Json → List Char → Prop
  | null : Spells d .null ['n', 'u', 'l', 'l']
  | yes : Spells d (.bool true) ['t', 'r', 'u', 'e']
  | no : Spells d (.bool false) ['f', 'a', 'l', 's', 'e']
  | nan (h : d.words = true) : Spells d (.float (0.0 / 0.0)) ['N', 'a', 'N']
  | infinity (h : d.words = true) :
      Spells d (.float (1.0 / 0.0)) ['I', 'n', 'f', 'i', 'n', 'i', 't', 'y']
  | minusInfinity (h : d.words = true) :
      Spells d (.float (-1.0 / 0.0)) ['-', 'I', 'n', 'f', 'i', 'n', 'i', 't', 'y']
  | number {v : Json} {text : List Char} (h : Spelled d false text v) : Spells d v text
  | minus {v : Json} {text : List Char} (h : Spelled d true text v) : Spells d v ('-' :: text)
  | str {body : List Char} {us : List Nat} (h : Units body us) :
      Spells d (.str (String.ofList (joined us))) ('"' :: (body ++ ['"']))
  | noItems {blank : List Char} (h : Blank blank) : Spells d (.arr []) ('[' :: (blank ++ [']']))
  | arr {items : List Json} {text : List Char} (h : SpellsItems d items text) :
      Spells d (.arr items) ('[' :: (text ++ [']']))
  | noMembers {blank : List Char} (h : Blank blank) : Spells d (.obj []) ('{' :: (blank ++ ['}']))
  | obj {members : List (String × Json)} {text : List Char} (h : SpellsMembers d members text) :
      Spells d (ofMembers members) ('{' :: (text ++ ['}']))

/-- The texts of a value with blanks around it. -/
inductive SpellsPadded (d : Dialect) : Json → List Char → Prop
  | mk {v : Json} {before text after : List Char} (hbefore : Blank before) (h : Spells d v text)
      (hafter : Blank after) : SpellsPadded d v (before ++ (text ++ after))

/-- The texts of the items of a list, one or more. -/
inductive SpellsItems (d : Dialect) : List Json → List Char → Prop
  | one {v : Json} {text : List Char} (h : SpellsPadded d v text) : SpellsItems d [v] text
  | cons {v : Json} {items : List Json} {text rest : List Char} (h : SpellsPadded d v text)
      (hrest : SpellsItems d items rest) : SpellsItems d (v :: items) (text ++ ',' :: rest)

/-- The texts of a key and its value with blanks around both. -/
inductive SpellsMember (d : Dialect) : String × Json → List Char → Prop
  | mk {v : Json} {before body after text : List Char} {us : List Nat} (hbefore : Blank before)
      (hkey : Units body us) (hafter : Blank after) (h : SpellsPadded d v text) :
      SpellsMember d (String.ofList (joined us), v)
        (before ++ '"' :: (body ++ '"' :: (after ++ ':' :: text)))

/-- The texts of the members of an object, one or more. -/
inductive SpellsMembers (d : Dialect) : List (String × Json) → List Char → Prop
  | one {m : String × Json} {text : List Char} (h : SpellsMember d m text) :
      SpellsMembers d [m] text
  | cons {m : String × Json} {members : List (String × Json)} {text rest : List Char}
      (h : SpellsMember d m text) (hrest : SpellsMembers d members rest) :
      SpellsMembers d (m :: members) (text ++ ',' :: rest)

end

/-! ## Blanks -/

theorem blank_nil : Blank [] := fun _ h => by cases h

theorem Blank.append {cs ds : List Char} (h : Blank cs) (h' : Blank ds) : Blank (cs ++ ds) :=
  List.forall_mem_append.mpr ⟨h, h'⟩

/-- The four characters that may stand between the parts of a text. -/
theorem isSpace_iff {c : Char} :
    isSpace c = true ↔ c = ' ' ∨ c = '\t' ∨ c = '\n' ∨ c = '\r' := by
  simp [isSpace, or_assoc]

/-- What is skipped are blanks. -/
theorem exists_blank (cs : List Char) : ∃ blank, Blank blank ∧ cs = blank ++ skipSpace cs := by
  refine ⟨cs.takeWhile isSpace, fun c hc => ?_, List.takeWhile_append_dropWhile.symm⟩
  exact isSpace_iff.mp (List.mem_takeWhile_imp hc)

theorem skipSpace_append {blank : List Char} (h : Blank blank) (cs : List Char) :
    skipSpace (blank ++ cs) = skipSpace cs := by
  rw [skipSpace, List.dropWhile_append_of_pos fun c hc => isSpace_iff.mpr (h c hc)]
  rfl

theorem skipSpace_cons {c : Char} (h : isSpace c = false) (cs : List Char) :
    skipSpace (c :: cs) = c :: cs := List.dropWhile_cons_of_neg (by simp [h])

/-! ## Texts -/

/-- Four digits are taken off the front, and what they give depends on them alone. -/
private theorem hex4_eq_some {cs rest : List Char} {u : Nat} (h : hex4 cs = some (u, rest)) :
    ∃ digits, cs = digits ++ rest ∧ hex4 digits = some (u, []) := by
  unfold hex4 at h
  split at h
  next a b c d tail =>
    simp only [bind, Option.bind_eq_some_iff] at h
    obtain ⟨w, hw, x, hx, y, hy, z, hz, h⟩ := h
    cases h
    exact ⟨[a, b, c, d], rfl, by simp [hex4, hw, hx, hy, hz]⟩
  · cases h

/-- Four digits are read in the same way, whatever follows. -/
private theorem hex4_append {digits : List Char} {u : Nat} (h : hex4 digits = some (u, []))
    (rest : List Char) : hex4 (digits ++ rest) = some (u, rest) := by
  unfold hex4 at h
  split at h
  next a b c d tail =>
    simp only [bind, Option.bind_eq_some_iff] at h
    obtain ⟨w, hw, x, hx, y, hy, z, hz, h⟩ := h
    cases h
    simp [hex4, hw, hx, hy, hz]
  · cases h

/-- A character is no half of a pair. -/
private theorem isHigh_toNat (c : Char) : isHigh c.toNat = false ∧ isLow c.toNat = false := by
  have hvalid : c.toNat < 0xd800 ∨ 0xdfff < c.toNat ∧ c.toNat < 0x110000 := c.valid
  simp only [isHigh, isLow, Bool.and_eq_false_iff, decide_eq_false_iff_not]
  omega

private theorem scalar_toNat (c : Char) : scalar c.toNat = c := by
  rw [scalar, (isHigh_toNat c).1, (isHigh_toNat c).2]
  exact Char.ofNat_toNat c

/-- A unit that is not the first half of a pair that follows is a character for itself. -/
private theorem joined_cons {u : Nat} {us : List Nat}
    (h : ∀ v ∈ us.head?, ¬ (isHigh u = true ∧ isLow v = true)) :
    joined (u :: us) = scalar u :: joined us := by
  cases us with
  | nil => rfl
  | cons v rest => rw [joined, if_neg (by simpa using h v rfl)]

private theorem joined_toNat_cons (c : Char) (us : List Nat) :
    joined (c.toNat :: us) = c :: joined us := by
  rw [joined_cons fun v _ h => by simp [(isHigh_toNat c).1] at h, scalar_toNat]

/-- May a character stand between quotes as it is? -/
def isPlain (c : Char) : Bool := 32 ≤ c.toNat && c != '"' && c != '\\'

/-- A text without quotes, backslashes and controls stands between quotes as it is. -/
theorem units_of_plain {cs : List Char} (h : cs.all isPlain = true) :
    Units cs (cs.map Char.toNat) ∧ joined (cs.map Char.toNat) = cs := by
  induction cs with
  | nil => exact ⟨.nil, rfl⟩
  | cons c rest ih =>
    obtain ⟨hplain, hrest⟩ : isPlain c = true ∧ rest.all isPlain = true := by simpa using h
    obtain ⟨⟨hcontrol, hquote⟩, hbackslash⟩ : (32 ≤ c.toNat ∧ c ≠ '"') ∧ c ≠ '\\' := by
      simpa [isPlain] using hplain
    obtain ⟨hunits, hjoined⟩ := ih hrest
    exact ⟨.plain hcontrol hquote hbackslash hunits,
      by rw [List.map_cons, joined_toNat_cons, hjoined]⟩

theorem hex4_of_numericEscape {cs rest : List Char} {c : Char}
    (h : numericEscape cs = some (c, rest)) : ∃ u tail, hex4 cs = some (u, tail) := by
  obtain ⟨⟨u, tail⟩, hhex, -⟩ := Option.bind_eq_some_iff.mp h
  exact ⟨u, tail, hhex⟩

/-- A high surrogate takes the low one after it along. -/
private theorem numericEscape_of_pair {cs more tail : List Char} {u v : Nat}
    (hhigh : hex4 cs = some (u, '\\' :: 'u' :: more)) (hlow : hex4 more = some (v, tail))
    (hu : isHigh u = true) (hv : isLow v = true) :
    numericEscape cs = some (paired u v, tail) := by
  simp only [isHigh, isLow, Bool.and_eq_true, decide_eq_true_eq] at hu hv
  have hfirst : 0xd800 ≤ u ∧ u < 0xdc00 := by omega
  have hsecond : 0xdc00 ≤ v ∧ v < 0xe000 := by omega
  simp only [numericEscape, hhigh, Option.bind_eq_bind, Option.bind_some, if_pos hfirst, hlow,
    if_pos hsecond]
  rfl

/-- Any other unit stands for itself, where no low surrogate completes it. -/
private theorem numericEscape_of_single {cs rest : List Char} {u : Nat}
    (h : hex4 cs = some (u, rest))
    (hsingle : ∀ more v tail, rest = '\\' :: 'u' :: more → hex4 more = some (v, tail) →
      ¬ (isHigh u = true ∧ isLow v = true)) : numericEscape cs = some (scalar u, rest) := by
  simp only [isHigh, isLow, Bool.and_eq_true, decide_eq_true_eq] at hsingle
  simp only [numericEscape, h, Option.bind_eq_bind, Option.bind_some, scalar, isHigh, isLow,
    Bool.or_eq_true, Bool.and_eq_true, decide_eq_true_eq]
  by_cases hhigh : 0xd800 ≤ u ∧ u < 0xdc00
  · rw [if_pos hhigh, if_pos (by omega)]
    split
    next more =>
      split
      next v tail hlow =>
        have hv := hsingle more v tail rfl hlow
        rw [if_neg (by omega)]
        rfl
      · rfl
    · rfl
  · rw [if_neg hhigh]
    by_cases hlow : 0xdc00 ≤ u ∧ u < 0xe000
    · rw [if_pos hlow, if_pos (by omega)]
      rfl
    · rw [if_neg hlow, if_neg (by omega)]
      rfl

/-- The second half of a pair stands for itself only as an escape. -/
theorem Units.escape {cs : List Char} {v : Nat} {us : List Nat} (h : Units cs (v :: us))
    (hv : isLow v = true) : ∃ digits rest, cs = '\\' :: 'u' :: (digits ++ rest) ∧
      hex4 digits = some (v, []) ∧ Units rest us := by
  cases h with
  | plain => simp [(isHigh_toNat _).2] at hv
  | short => simp [(isHigh_toNat _).2] at hv
  | numeric h hrest => exact ⟨_, _, rfl, h, hrest⟩

/-- An escape that comes next is that of the first unit. -/
theorem Units.head?_eq {cs more rest tail : List Char} {v : Nat} {us : List Nat} (h : Units cs us)
    (hmore : cs ++ '"' :: rest = '\\' :: 'u' :: more) (hhex : hex4 more = some (v, tail)) :
    us.head? = some v := by
  cases h with
  | nil => simp at hmore
  | plain _ _ hbackslash => exact absurd (List.cons.inj hmore).1 hbackslash
  | @short e c _ _ h =>
    obtain ⟨-, he, -⟩ : '\\' = '\\' ∧ e = 'u' ∧ _ := by simpa using hmore
    rw [he] at h
    cases h
  | @numeric digits cs u us h =>
    have heq : digits ++ (cs ++ '"' :: rest) = more := by simpa using hmore
    rw [← heq, hex4_append h] at hhex
    simpa using congrArg (Option.map Prod.fst) hhex

/-- A numeric escape gives one character of a string. -/
private theorem stringBody_numeric {cs tail : List Char} {c : Char}
    (h : numericEscape cs = some (c, tail)) (fuel : Nat) (acc : List Char) :
    stringBody (fuel + 1) acc ('\\' :: 'u' :: cs) = stringBody fuel (c :: acc) tail := by
  rw [stringBody.eq_def]
  simp only [h]

/-- A character that needs no escape stands for itself. -/
private theorem stringBody_plain {c : Char} (hcontrol : 32 ≤ c.toNat) (hquote : c ≠ '"')
    (hbackslash : c ≠ '\\') (fuel : Nat) (acc cs : List Char) :
    stringBody (fuel + 1) acc (c :: cs) = stringBody fuel (c :: acc) cs := by
  rw [stringBody.eq_def]
  dsimp only
  split
  next heq => cases heq; exact absurd rfl hquote
  next heq => cases heq; exact absurd rfl hbackslash
  next heq => cases heq; exact absurd rfl hbackslash
  next heq =>
    cases heq
    rw [if_neg (by simp [hbackslash]; omega)]
  next heq => cases heq

/-- A short escape gives the character that it stands for. -/
private theorem stringBody_short {e c : Char} (h : shortEscape? e = some c) (fuel : Nat)
    (acc cs : List Char) :
    stringBody (fuel + 1) acc ('\\' :: e :: cs) = stringBody fuel (c :: acc) cs := by
  have hne : e ≠ 'u' := by
    rintro rfl
    cases h
  rw [stringBody.eq_def]
  dsimp only
  split
  next heq => cases heq
  next heq => cases heq; exact absurd rfl hne
  next heq =>
    cases heq
    simp only [h]
  next hother heq => cases heq; exact absurd rfl (hother _ _ rfl)
  next heq => cases heq

/-- A numeric escape that is read, with what is read after it. -/
theorem units_of_numericEscape {cs body rest : List Char} {c : Char} {us : List Nat}
    (h : numericEscape cs = some (c, body ++ '"' :: rest)) (hunits : Units body us) :
    ∃ body' us', '\\' :: 'u' :: cs = body' ++ '"' :: rest ∧ Units body' us' ∧
      joined us' = c :: joined us := by
  obtain ⟨u, next, hhex⟩ := hex4_of_numericEscape h
  obtain ⟨digits, rfl, hdigits⟩ := hex4_eq_some hhex
  by_cases hpair : ∃ more v tail, next = '\\' :: 'u' :: more ∧ hex4 more = some (v, tail) ∧
      isHigh u = true ∧ isLow v = true
  · obtain ⟨more, v, tail, rfl, hlow, hu, hv⟩ := hpair
    rw [numericEscape_of_pair hhex hlow hu hv, Option.some.injEq, Prod.mk.injEq] at h
    obtain ⟨rfl, rfl⟩ := h
    obtain ⟨digits', rfl, hdigits'⟩ := hex4_eq_some hlow
    refine ⟨_, u :: v :: us, ?_, .numeric hdigits (.numeric hdigits' hunits), ?_⟩
    · simp
    · simp [joined, hu, hv]
  · rw [numericEscape_of_single hhex fun more v tail hnext hlow hboth =>
      hpair ⟨more, v, tail, hnext, hlow, hboth⟩, Option.some.injEq, Prod.mk.injEq] at h
    obtain ⟨rfl, rfl⟩ := h
    refine ⟨_, u :: us, ?_, .numeric hdigits hunits, joined_cons fun v hv hboth => ?_⟩
    · simp
    · -- the second half of a pair would have come next
      obtain ⟨us, rfl⟩ : ∃ rest, us = v :: rest := List.head?_eq_some_iff.mp hv
      obtain ⟨digits', after, rfl, hdigits', _⟩ := hunits.escape hboth.2
      exact hpair ⟨digits' ++ (after ++ '"' :: rest), v, _, by simp, hex4_append hdigits' _, hboth⟩

/-- A numeric escape is read with the one after it if they are a pair. -/
theorem numericEscape_of_units {digits cs : List Char} {u : Nat} {us : List Nat}
    (hdigits : hex4 digits = some (u, [])) (hunits : Units cs us) (rest : List Char) :
    ∃ c after us', numericEscape (digits ++ (cs ++ '"' :: rest)) = some (c, after ++ '"' :: rest) ∧
      Units after us' ∧ after.length ≤ cs.length ∧ joined (u :: us) = c :: joined us' := by
  have hhex := hex4_append hdigits (cs ++ '"' :: rest)
  by_cases hpair : ∃ v ∈ us.head?, isHigh u = true ∧ isLow v = true
  · obtain ⟨v, hv, hu, hlow⟩ := hpair
    obtain ⟨us, rfl⟩ : ∃ rest, us = v :: rest := List.head?_eq_some_iff.mp hv
    obtain ⟨digits', after, rfl, hdigits', hafter⟩ := hunits.escape hlow
    refine ⟨paired u v, after, us, ?_, hafter, ?_, by simp [joined, hu, hlow]⟩
    · have hmore := hex4_append hdigits' (after ++ '"' :: rest)
      exact numericEscape_of_pair (by simpa using hhex) hmore hu hlow
    · simp only [List.length_cons, List.length_append]
      omega
  · refine ⟨scalar u, cs, us, ?_, hunits, le_rfl, ?_⟩
    · refine numericEscape_of_single hhex fun more v tail hnext hlow hboth => ?_
      exact hpair ⟨v, hunits.head?_eq hnext hlow, hboth⟩
    · exact joined_cons fun v hv hboth => hpair ⟨v, hv, hboth⟩

/-- What is read up to the closing quote. -/
theorem units_of_stringBody {fuel : Nat} {acc cs rest : List Char} {s : String}
    (h : stringBody fuel acc cs = .ok (s, rest)) : ∃ body us, cs = body ++ '"' :: rest ∧
      Units body us ∧ s = String.ofList (acc.reverse ++ joined us) := by
  -- on the fuel; the cases are those of the first character
  induction fuel generalizing acc cs with
  | zero => cases h
  | succ fuel ih =>
    rw [stringBody.eq_def] at h
    dsimp only at h
    split at h
    · cases h
      exact ⟨[], [], rfl, .nil, by rw [joined, List.append_nil]⟩
    · split at h
      next hescape =>
        obtain ⟨body, us, rfl, hunits, rfl⟩ := ih h
        obtain ⟨body', us', hbody, hunits', hjoined⟩ := units_of_numericEscape hescape hunits
        exact ⟨body', us', hbody, hunits', by simp [hjoined]⟩
      · cases h
    · split at h
      next hshort =>
        obtain ⟨body, us, rfl, hunits, rfl⟩ := ih h
        exact ⟨_, _, rfl, .short hshort hunits, by simp [joined_toNat_cons]⟩
      · cases h
    next c tail hquote _ _ =>
      split at h
      · cases h
      next hplain =>
        rw [not_or] at hplain
        obtain ⟨body, us, rfl, hunits, rfl⟩ := ih h
        exact ⟨_, _, rfl, .plain (by omega) hquote hplain.2 hunits, by simp [joined_toNat_cons]⟩
    · cases h

/-- What stands between quotes is read. -/
theorem stringBody_of_units {fuel : Nat} {acc body : List Char} {us : List Nat}
    (h : Units body us) (hfuel : body.length < fuel) (rest : List Char) :
    stringBody fuel acc (body ++ '"' :: rest) =
      .ok (String.ofList (acc.reverse ++ joined us), rest) := by
  -- on the fuel, of which each character or escape of the body takes one
  induction fuel generalizing acc body us with
  | zero => omega
  | succ fuel ih =>
    cases h with
    | nil =>
      rw [joined, List.append_nil]
      rfl
    | plain hcontrol hquote hbackslash hrest =>
      rw [List.cons_append, stringBody_plain hcontrol hquote hbackslash,
        ih hrest (by simpa using hfuel), joined_toNat_cons]
      simp
    | short h hrest =>
      rw [List.cons_append, List.cons_append, stringBody_short h,
        ih hrest (by simp at hfuel; omega), joined_toNat_cons]
      simp
    | numeric hdigits hrest =>
      obtain ⟨c, after, us', hescape, hafter, hlength, hjoined⟩ :=
        numericEscape_of_units hdigits hrest rest
      simp only [List.length_cons, List.length_append] at hfuel
      rw [List.cons_append, List.cons_append, List.append_assoc, stringBody_numeric hescape,
        ih hafter (by omega), hjoined]
      simp

/-! ## Numbers -/

/-- Does a text that follows a number not go on with it? -/
def Closed (cs : List Char) : Prop :=
  ∀ c ∈ cs.head?, c.isDigit = false ∧ c ≠ '.' ∧ c ≠ 'e' ∧ c ≠ 'E'

/-- The digits are taken as far as they go. -/
private theorem digits_append {ds rest : List Char} (h : ∀ c ∈ ds, c.isDigit = true)
    (hrest : ∀ c ∈ rest.head?, c.isDigit = false) :
    digits (ds ++ rest) = (digitValues ds, rest) := by
  have hstop : rest.takeWhile Char.isDigit = [] ∧ rest.dropWhile Char.isDigit = rest := by
    cases rest with
    | nil => exact ⟨rfl, rfl⟩
    | cons c rest =>
      have hc := hrest c rfl
      exact ⟨List.takeWhile_cons_of_neg (by simp [hc]), List.dropWhile_cons_of_neg (by simp [hc])⟩
  rw [digits, List.span_eq_takeWhile_dropWhile, List.takeWhile_append_of_pos h,
    List.dropWhile_append_of_pos h, hstop.1, hstop.2, List.append_nil]
  rfl

/-- Every text begins with digits, if only with none. -/
theorem exists_digits (cs : List Char) : ∃ ds rest, cs = ds ++ rest ∧
    (∀ c ∈ ds, c.isDigit = true) ∧ digits cs = (digitValues ds, rest) := by
  refine ⟨cs.takeWhile Char.isDigit, cs.dropWhile Char.isDigit,
    List.takeWhile_append_dropWhile.symm, fun c hc => List.mem_takeWhile_imp hc, ?_⟩
  rw [digits, List.span_eq_takeWhile_dropWhile]
  rfl

theorem digitValues_eq_nil {ds : List Char} : digitValues ds = [] ↔ ds = [] := List.map_eq_nil_iff

/-- A whole part that is read is spelled as one, without a zero in front. -/
theorem whole_of_wholePart {cs rest : List Char} {values : List Nat}
    (h : wholePart cs = some (values, rest)) :
    ∃ whole, cs = whole ++ rest ∧ Whole whole ∧ values = digitValues whole := by
  unfold wholePart at h
  split at h
  · cases h
    exact ⟨['0'], rfl, .zero, rfl⟩
  next hzero =>
    obtain ⟨ds, tail, rfl, hds, hdigits⟩ := exists_digits cs
    rw [hdigits] at h
    split at h
    · cases h
    next hne =>
      cases h
      refine ⟨ds, rfl, .digits ⟨?_, hds⟩ ?_, rfl⟩
      · rintro rfl
        exact hne _ rfl
      · intro hfirst
        obtain ⟨ds, rfl⟩ := List.head?_eq_some_iff.mp hfirst
        exact hzero _ rfl

/-- A whole part is read as far as it goes. -/
theorem wholePart_of_whole {whole rest : List Char} (h : Whole whole)
    (hrest : ∀ c ∈ rest.head?, c.isDigit = false) :
    wholePart (whole ++ rest) = some (digitValues whole, rest) := by
  cases h with
  | zero => rfl
  | digits h hfirst =>
    obtain ⟨hne, hds⟩ := h
    unfold wholePart
    split
    next heq =>
      cases whole with
      | nil => exact absurd rfl hne
      | cons c whole => cases heq; exact absurd rfl hfirst
    · rw [digits_append hds hrest]
      split
      next heq =>
        rw [Prod.mk.injEq, digitValues_eq_nil] at heq
        exact absurd heq.1 hne
      · rfl

/-- What is read as decimal places is spelled as such, or is nothing. -/
theorem exists_places (cs : List Char) : ∃ point places rest, cs = point ++ rest ∧
    Places point places ∧ fraction cs = (digitValues places, rest) := by
  unfold fraction
  split
  next tail =>
    obtain ⟨ds, tail, rfl, hds, hdigits⟩ := exists_digits tail
    rw [hdigits]
    split
    · exact ⟨[], [], _, rfl, .none, rfl⟩
    next hne =>
      refine ⟨'.' :: ds, ds, tail, rfl, .some ⟨?_, hds⟩, rfl⟩
      rintro rfl
      exact hne _ rfl
  · exact ⟨[], [], _, rfl, .none, rfl⟩

/-- Decimal places are read as far as they go. -/
theorem fraction_of_places {point places rest : List Char} (h : Places point places)
    (hrest : ∀ c ∈ rest.head?, c.isDigit = false ∧ c ≠ '.') :
    fraction (point ++ rest) = (digitValues places, rest) := by
  cases h with
  | none =>
    unfold fraction
    split
    next heq =>
      rw [List.nil_append] at heq
      subst heq
      exact absurd rfl (hrest _ rfl).2
    · rfl
  | some h =>
    obtain ⟨hne, hds⟩ := h
    rw [List.cons_append, fraction, digits_append hds fun c hc => (hrest c hc).1]
    split
    next heq =>
      rw [Prod.mk.injEq, digitValues_eq_nil] at heq
      exact absurd heq.1 hne
    · rfl

private theorem exists_sign (cs : List Char) : ∃ sign negative rest, cs = sign ++ rest ∧
    Sign sign negative ∧ exponentSign cs = (negative, rest) := by
  unfold exponentSign
  split
  · exact ⟨_, _, _, rfl, .minus, rfl⟩
  · exact ⟨_, _, _, rfl, .plus, rfl⟩
  · exact ⟨[], _, _, rfl, .none, rfl⟩

private theorem exponentSign_of_sign {sign ds : List Char} {negative : Bool}
    (h : Sign sign negative) (hds : Digits ds) (rest : List Char) :
    exponentSign (sign ++ (ds ++ rest)) = (negative, ds ++ rest) := by
  cases h with
  | none =>
    -- the first digit is no sign
    obtain ⟨hne, hds⟩ := hds
    cases ds with
    | nil => exact absurd rfl hne
    | cons c ds =>
      have hc := hds c List.mem_cons_self
      unfold exponentSign
      split
      next heq => cases heq; cases hc
      next heq => cases heq; cases hc
      · rfl
  | plus => rfl
  | minus => rfl

/-- What is read as an exponent is spelled as one, or is nothing. -/
theorem exists_power (cs : List Char) : ∃ text power rest, cs = text ++ rest ∧
    Power text power ∧ exponent cs = (power, rest) := by
  unfold exponent
  split
  next e tail =>
    split
    next he =>
      obtain ⟨sign, negative, body, rfl, hsign, hread⟩ := exists_sign tail
      obtain ⟨ds, rest, rfl, hds, hdigits⟩ := exists_digits body
      rw [hread]
      dsimp only
      rw [hdigits]
      split
      · exact ⟨[], _, _, rfl, .none, rfl⟩
      next hne heq =>
        cases heq
        refine ⟨e :: (sign ++ ds), _, rest, by simp, .some he hsign ⟨?_, hds⟩, rfl⟩
        rintro rfl
        exact hne rfl
    · exact ⟨[], _, _, rfl, .none, rfl⟩
  · exact ⟨[], _, _, rfl, .none, rfl⟩

/-- An exponent is read as far as it goes. -/
theorem exponent_of_power {text rest : List Char} {power : Option Int} (h : Power text power)
    (hrest : Closed rest) : exponent (text ++ rest) = (power, rest) := by
  cases h with
  | none =>
    cases rest with
    | nil => rfl
    | cons c rest =>
      obtain ⟨-, -, he, hE⟩ := hrest c rfl
      rw [List.nil_append, exponent, if_neg (by simp [he, hE])]
  | @some e sign ds negative he hsign h =>
    have hdigits := digits_append h.2 fun c hc => (hrest c hc).1
    rw [List.cons_append, List.append_assoc, exponent, if_pos he, exponentSign_of_sign hsign h]
    dsimp only
    rw [hdigits]
    split
    next heq =>
      rw [Prod.mk.injEq, digitValues_eq_nil] at heq
      exact absurd heq.1 h.1
    next heq => cases heq; rfl

theorem Power.stops {text rest : List Char} {power : Option Int} (h : Power text power)
    (hrest : Closed rest) : ∀ c ∈ (text ++ rest).head?, c.isDigit = false ∧ c ≠ '.' := by
  cases h with
  | none => exact fun c hc => ⟨(hrest c hc).1, (hrest c hc).2.1⟩
  | some he =>
    intro c hc
    obtain rfl := Option.some.inj hc
    rcases he with rfl | rfl <;> decide

theorem Places.stops {point places rest : List Char} (h : Places point places)
    (hrest : ∀ c ∈ rest.head?, c.isDigit = false) :
    ∀ c ∈ (point ++ rest).head?, c.isDigit = false := by
  cases h with
  | none => exact hrest
  | some =>
    intro c hc
    obtain rfl := Option.some.inj hc
    decide

/-- What is read of a number by its parts. -/
theorem number_eq {negative : Bool} {cs afterWhole afterPlaces rest whole places : List Char}
    {power : Option Int} (hwhole : wholePart cs = some (digitValues whole, afterWhole))
    (hfraction : fraction afterWhole = (digitValues places, afterPlaces))
    (hexponent : exponent afterPlaces = (power, rest)) : number negative cs =
      if places = [] ∧ power = none then
        if Number.maxDigits < whole.length then .error .tooManyDigits
        else .ok
          (.int (Number.Exact.signed negative (Number.digitsValue (digitValues whole))), rest)
      else .ok (floatOf negative whole places power, rest) := by
  have hint : ((digitValues places).isEmpty && power.isNone) = true ↔
      places = [] ∧ power = none := by simp [digitValues]
  unfold number
  rw [hwhole]
  dsimp only
  rw [hfraction]
  dsimp only
  rw [hexponent]
  simp only [hint, gt_iff_lt, floatOf]
  simp only [digitValues, List.length_map, List.map_append]

/-- A whole number with too many digits is refused. -/
theorem number_of_long {negative : Bool} {whole rest : List Char} (h : Whole whole)
    (hlong : Number.maxDigits < whole.length) (hrest : Closed rest) :
    number negative (whole ++ rest) = .error .tooManyDigits := by
  have hpart := wholePart_of_whole h fun c hc => (hrest c hc).1
  have hfraction := fraction_of_places .none (Power.none.stops hrest)
  have hexponent := exponent_of_power .none hrest
  rw [number_eq hpart hfraction hexponent, if_pos ⟨rfl, rfl⟩, if_pos hlong]

/-- A number that is read is spelled so. -/
theorem spelled_of_number {negative : Bool} {cs rest : List Char} {v : Json}
    (h : number negative cs = .ok (v, rest)) :
    ∃ text, cs = text ++ rest ∧ Spelled .lenient negative text v := by
  cases hwhole : wholePart cs with
  | none =>
    unfold number at h
    rw [hwhole] at h
    cases h
  | some found =>
    obtain ⟨values, afterWhole⟩ := found
    obtain ⟨whole, rfl, hspelled, rfl⟩ := whole_of_wholePart hwhole
    obtain ⟨point, places, afterPlaces, rfl, hplaces, hfraction⟩ := exists_places afterWhole
    obtain ⟨text, power, tail, rfl, hpower, hexponent⟩ := exists_power afterPlaces
    rw [number_eq hwhole hfraction hexponent] at h
    split at h
    next hint =>
      split at h
      · cases h
      next hlimit =>
        cases h
        -- a number with no places and no exponent is read as an integer
        have hnothing : point = [] ∧ text = [] := by
          obtain ⟨rfl, rfl⟩ := hint
          cases hplaces with
          | none => cases hpower; exact ⟨rfl, rfl⟩
          | some h => exact absurd rfl h.1
        refine ⟨whole, by rw [hnothing.1, hnothing.2]; rfl, .int hspelled ?_⟩
        rintro n ⟨rfl⟩
        exact not_lt.mp hlimit
    next hfloat =>
      cases h
      refine ⟨whole ++ (point ++ text), by simp, .float hspelled hplaces hpower ?_⟩
      rw [not_and_or] at hfloat
      exact hfloat.imp_right Option.isSome_iff_ne_none.mpr

/-- A number that is spelled is read, unless what follows goes on with it. -/
theorem number_of_spelled {negative : Bool} {text rest : List Char} {v : Json}
    (h : Spelled .lenient negative text v) (hrest : Closed rest) :
    number negative (text ++ rest) = .ok (v, rest) := by
  cases h with
  | int hwhole hlimit =>
    have hfraction := fraction_of_places .none (Power.none.stops hrest)
    have hexponent := exponent_of_power .none hrest
    have hpart := wholePart_of_whole hwhole fun c hc => (hrest c hc).1
    rw [number_eq hpart hfraction hexponent, if_pos ⟨rfl, rfl⟩, if_neg (not_lt.mpr (hlimit _ rfl))]
  | float hwhole hplaces hpower h =>
    have hstops := hpower.stops hrest
    have hfraction := fraction_of_places hplaces hstops
    have hexponent := exponent_of_power hpower hrest
    have hpart := wholePart_of_whole hwhole (hplaces.stops fun c hc => (hstops c hc).1)
    rw [List.append_assoc, List.append_assoc, number_eq hpart hfraction hexponent, if_neg]
    rintro ⟨hplaces, hpower⟩
    simp [hplaces, hpower] at h

end Conceal.Json
