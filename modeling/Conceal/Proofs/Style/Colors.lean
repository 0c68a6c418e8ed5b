import Mathlib.Data.List.Basic
import Conceal.Style.Color

/-!
Colors that are read. A text is a color, with every component between 0 and 255, or it is none; only
a call of `rgb` or `rgba` with an infinite number, where the numbers before it are numbers with an
end, is neither. Of the host nothing is asked but that the components of its own colors lie in that
range, and this only where it is the host that is asked. Main statements: `Color.failsIf_read` and
`Color.valid_of_read`.
-/

namespace Conceal

open Number (Exact)

/-! ## Failing with an infinite number -/

/-- Fails under a condition, and then since a number is infinite. -/
def FailsIf {α : Type} (x : Except Fault α) (P : Prop) : Prop :=
  ∀ fault, x = .error fault ↔ fault = .unbounded ∧ P

section failsIf

variable {α β : Type} {x : Except Fault α} {f : α → Except Fault β} {P P' : Prop} {Q : α → Prop}

theorem failsIf_ok (a : α) : FailsIf (.ok a) False := fun _ =>
  ⟨fun h => (by cases h), fun h => h.2.elim⟩

theorem failsIf_unbounded : FailsIf (.error .unbounded : Except Fault α) True := fun _ =>
  ⟨fun h => ⟨(Except.error.inj h).symm, trivial⟩, fun h => congrArg Except.error h.1.symm⟩

theorem FailsIf.congr (h : FailsIf x P) (hP : P ↔ P') : FailsIf x P' := fun fault =>
  (h fault).trans (and_congr_right fun _ => hP)

/-- Of two operations in a row the second one fails only after a result of the first one. -/
theorem FailsIf.bind (hx : FailsIf x P) (hf : ∀ a, FailsIf (f a) (Q a)) :
    FailsIf (x >>= f) (P ∨ ∃ a, x = .ok a ∧ Q a) := by
  intro fault
  rw [bind_eq_error, hx]
  constructor
  · rintro (⟨hfault, h⟩ | ⟨a, ha, h⟩)
    · exact ⟨hfault, Or.inl h⟩
    · obtain ⟨hfault, h⟩ := (hf a fault).mp h
      exact ⟨hfault, Or.inr ⟨a, ha, h⟩⟩
  · rintro ⟨hfault, h | ⟨a, ha, h⟩⟩
    · exact Or.inl ⟨hfault, h⟩
    · exact Or.inr ⟨a, ha, (hf a fault).mpr ⟨hfault, h⟩⟩

/-- Where the second operation does not look at the result, either one may fail. -/
theorem FailsIf.seq (hx : FailsIf x P) (hf : ∀ a, FailsIf (f a) P') :
    FailsIf (x >>= f) (P ∨ P') := by
  refine (hx.bind hf).congr ⟨fun h => h.imp_right fun ⟨_, _, h⟩ => h, ?_⟩
  rintro (h | h)
  · exact Or.inl h
  · cases x with
    | ok a => exact Or.inr ⟨a, rfl, h⟩
    | error fault => exact Or.inl ((hx fault).mp rfl).2

end failsIf

namespace Color

/-! ## Components -/

/-- Every component lies between 0 and 255. -/
structure Valid (c : Color) : Prop where
  red : c.red ≤ 255
  green : c.green ≤ 255
  blue : c.blue ≤ 255
  alpha : c.alpha ≤ 255

instance (c : Color) : Decidable c.Valid :=
  decidable_of_iff (c.red ≤ 255 ∧ c.green ≤ 255 ∧ c.blue ≤ 255 ∧ c.alpha ≤ 255)
    ⟨fun ⟨hred, hgreen, hblue, halpha⟩ => ⟨hred, hgreen, hblue, halpha⟩,
      fun h => ⟨h.red, h.green, h.blue, h.alpha⟩⟩

end Color

/-- Every color that the host knows has its components in the range. -/
def Palette.Valid (palette : Palette) : Prop := ∀ text c, palette text = some c → c.Valid

/-- A host that knows names knows no other colors than those that have names. -/
theorem Palette.valid_ofNames {names : List (String × Color)} (h : ∀ pair ∈ names, pair.2.Valid) :
    (Palette.ofNames names).Valid := by
  intro text c hc
  obtain ⟨before, after, hnames, -⟩ := List.lookup_eq_some_iff.mp hc
  exact h (Text.lower text, c) (by simp [hnames])

theorem Palette.valid_basic : Palette.basic.Valid := valid_ofNames (by decide)

namespace Color

/-- A part writes an infinite number. -/
def Endless (part : String) : Prop :=
  ∃ x negative, Number.readFloat part = some x ∧ Exact.ofFloat x = .infinite negative

/-- A part writes a number that is not infinite. -/
def Ends (part : String) : Prop :=
  ∃ x negative m q, Number.readFloat part = some x ∧ Exact.ofFloat x = .finite negative m q

/-- A part writes a number that is infinite when it is scaled to the range of components. -/
def EndlessOpacity (part : String) : Prop :=
  ∃ x negative, Number.readFloat part = some x ∧ Exact.ofFloat (x * 255) = .infinite negative

variable {part text : String} {parts : List String} {n : Nat} {c : Color}

/-- A component is brought into the range of a byte, whatever the integer. -/
private theorem component_le (i : Int) : component i ≤ 255 := by
  unfold component
  omega

/-- A component fails for an infinite number only; a text that is no number gives no color. -/
theorem failsIf_ofWhole (whole : Except Number.ReadFault Int) :
    FailsIf (ofWhole whole) (whole = .error .unbounded) := by
  unfold ofWhole
  split
  · exact (failsIf_ok _).congr (by simp)
  · exact failsIf_unbounded.congr (by simp)
  next hbounded => exact (failsIf_ok _).congr (by simpa using hbounded)

theorem le_of_ofWhole {whole : Except Number.ReadFault Int} (h : ofWhole whole = .ok (some n)) :
    n ≤ 255 := by
  unfold ofWhole at h
  split at h
  · cases h
    exact component_le _
  · cases h
  · cases h

theorem exists_ofWhole_iff {whole : Except Number.ReadFault Int} :
    (∃ n, ofWhole whole = .ok (some n)) ↔ ∃ i, whole = .ok i := by
  unfold ofWhole
  split <;> simp

/-- Truncation fails for the infinite numbers alone; what is no number has an answer of its own. -/
theorem truncateFloat_eq_unbounded_iff {x : Float} : Number.truncateFloat x = .error .unbounded ↔
    ∃ negative, Exact.ofFloat x = .infinite negative := by
  unfold Number.truncateFloat Exact.truncate
  cases Exact.ofFloat x <;> simp

/-- Rounding fails for the infinite numbers alone. -/
theorem roundFloat_eq_unbounded_iff {x : Float} : Number.roundFloat x = .error .unbounded ↔
    ∃ negative, Exact.ofFloat x = .infinite negative := by
  unfold Number.roundFloat Exact.round
  cases Exact.ofFloat x <;> simp

/-- Truncation gives an integer for the finite numbers, and for no others. -/
theorem exists_truncateFloat_iff {x : Float} : (∃ i, Number.truncateFloat x = .ok i) ↔
    ∃ negative m q, Exact.ofFloat x = .finite negative m q := by
  unfold Number.truncateFloat Exact.truncate
  cases Exact.ofFloat x <;> simp

/-- A component between the parentheses fails exactly if it is endless. -/
theorem failsIf_readComponent (part : String) : FailsIf (readComponent part) (Endless part) := by
  unfold readComponent Endless
  cases Number.readFloat part with
  | none => exact (failsIf_ok _).congr (by simp)
  | some x =>
    exact (failsIf_ofWhole _).congr (truncateFloat_eq_unbounded_iff.trans (by simp))

/-- The opacity is scaled before it is rounded, so that a finite text may overflow too. -/
theorem failsIf_readOpacity (part : String) : FailsIf (readOpacity part) (EndlessOpacity part) := by
  unfold readOpacity EndlessOpacity
  cases Number.readFloat part with
  | none => exact (failsIf_ok _).congr (by simp)
  | some x => exact (failsIf_ofWhole _).congr (roundFloat_eq_unbounded_iff.trans (by simp))

theorem le_of_readComponent (h : readComponent part = .ok (some n)) : n ≤ 255 := by
  unfold readComponent at h
  split at h
  · cases h
  · exact le_of_ofWhole h

theorem le_of_readOpacity (h : readOpacity part = .ok (some n)) : n ≤ 255 := by
  unfold readOpacity at h
  split at h
  · cases h
  · exact le_of_ofWhole h

/-- A component is read exactly if its text ends in a finite number. -/
theorem exists_readComponent_iff : (∃ n, readComponent part = .ok (some n)) ↔ Ends part := by
  unfold readComponent Ends
  cases Number.readFloat part with
  | none => simp
  | some x => exact exists_ofWhole_iff.trans (exists_truncateFloat_iff.trans (by simp))

/-! ## Parts -/

/-- What is read of the parts: one byte for each, and each of them ends. -/
theorem readComponents_eq_some {ns : List Nat} (h : readComponents parts = .ok (some ns)) :
    ns.length = parts.length ∧ (∀ n ∈ ns, n ≤ 255) ∧ ∀ p ∈ parts, Ends p := by
  induction parts generalizing ns with
  | nil =>
    cases h
    simp
  | cons part rest ih =>
    obtain ⟨_ | n, hfirst, h⟩ := bind_eq_ok.mp h
    · cases h
    · obtain ⟨_ | ns, hrest, h⟩ := bind_eq_ok.mp h
      · cases h
      · cases h
        obtain ⟨hlength, hvalid, hends⟩ := ih hrest
        refine ⟨congrArg (· + 1) hlength, ?_, ?_⟩
        · exact List.forall_mem_cons.mpr ⟨le_of_readComponent hfirst, hvalid⟩
        · exact List.forall_mem_cons.mpr ⟨exists_readComponent_iff.mp ⟨n, hfirst⟩, hends⟩

theorem exists_readComponents (h : ∀ p ∈ parts, Ends p) :
    ∃ ns, readComponents parts = .ok (some ns) := by
  induction parts with
  | nil => exact ⟨[], rfl⟩
  | cons part rest ih =>
    obtain ⟨hfirst, hrest⟩ := List.forall_mem_cons.mp h
    obtain ⟨n, hfirst⟩ := exists_readComponent_iff.mpr hfirst
    obtain ⟨ns, hrest⟩ := ih hrest
    exact ⟨n :: ns, bind_eq_ok.mpr ⟨_, hfirst, bind_eq_ok.mpr ⟨_, hrest, rfl⟩⟩⟩

/-- Behind numbers that are not infinite, if any, a part writes an infinite one. -/
inductive MeetsEndless : List String → Prop
  | here {part : String} (h : Endless part) (rest : List String) : MeetsEndless (part :: rest)
  | later {part : String} {rest : List String} (hpart : Ends part) (h : MeetsEndless rest) :
      MeetsEndless (part :: rest)

/-- The parts are read from the left, so that an endless one counts up to the first that is no
number. -/
theorem failsIf_readComponents (parts : List String) :
    FailsIf (readComponents parts) (MeetsEndless parts) := by
  induction parts with
  | nil => exact (failsIf_ok _).congr ⟨False.elim, fun h => by cases h⟩
  | cons part rest ih =>
    refine ((failsIf_readComponent part).bind
      (Q := fun r => r ≠ none ∧ MeetsEndless rest) ?_).congr ⟨?_, ?_⟩
    · -- what is no number ends the reading, so that later parts do not count
      rintro (_ | n)
      · exact (failsIf_ok _).congr (by simp)
      · exact (ih.seq fun _ => failsIf_ok _).congr (by simp)
    · rintro (h | ⟨_ | n, hn, hne, h⟩)
      · exact .here h rest
      · exact absurd rfl hne
      · exact .later (exists_readComponent_iff.mp ⟨n, hn⟩) h
    · rintro (⟨h⟩ | ⟨hpart, h⟩)
      · exact Or.inl h
      · obtain ⟨n, hn⟩ := exists_readComponent_iff.mpr hpart
        exact Or.inr ⟨some n, hn, by simp, h⟩

/-- The parts of a call for which there is no color: among the first three comes an infinite number,
or these are numbers and the opacity behind them is infinite. -/
inductive Fails (parts : List String) : Prop
  | component (h : MeetsEndless (parts.take 3))
  | opacity {part : String} (hpart : parts[3]? = some part) (hends : ∀ p ∈ parts.take 3, Ends p)
      (h : EndlessOpacity part)

/-- The opacity is looked at last, after three components that are numbers. -/
theorem failsIf_ofParts (parts : List String) : FailsIf (ofParts parts) (Fails parts) := by
  refine ((failsIf_readComponents _).bind (Q := fun r => (∃ ns, r = some ns ∧ ns.length = 3) ∧
    ∃ part, parts[3]? = some part ∧ EndlessOpacity part) fun r => ?_).congr ⟨?_, ?_⟩
  · split
    next r g b =>
      cases parts[3]? with
      | none => exact (failsIf_ok _).congr (by simp)
      | some part => exact ((failsIf_readOpacity part).seq fun _ => failsIf_ok _).congr (by simp)
    next hshort =>
      refine (failsIf_ok _).congr ⟨False.elim, ?_⟩
      rintro ⟨⟨ns, rfl, hlength⟩, -⟩
      obtain ⟨r, g, b, rfl⟩ := List.length_eq_three.mp hlength
      exact hshort r g b rfl
  · rintro (h | ⟨_, hns, ⟨ns, rfl, -⟩, part, hpart, h⟩)
    · exact .component h
    · exact .opacity hpart (readComponents_eq_some hns).2.2 h
  · rintro (h | ⟨hpart, hends, h⟩)
    · exact Or.inl h
    · obtain ⟨ns, hns⟩ := exists_readComponents hends
      have hlength := (readComponents_eq_some hns).1
      obtain ⟨hlong, -⟩ := List.getElem?_eq_some_iff.mp hpart
      rw [List.length_take] at hlength
      exact Or.inr ⟨some ns, hns, ⟨ns, rfl, by omega⟩, _, hpart, h⟩

theorem valid_of_ofParts (h : ofParts parts = .ok (some c)) : c.Valid := by
  obtain ⟨ns, hns, h⟩ := bind_eq_ok.mp h
  split at h
  next r g b =>
    obtain ⟨-, hvalid, -⟩ := readComponents_eq_some hns
    simp only [List.mem_cons, List.not_mem_nil, or_false, forall_eq_or_imp, forall_eq] at hvalid
    obtain ⟨hr, hg, hb⟩ := hvalid
    split at h
    · cases h
      exact ⟨hr, hg, hb, Nat.le_refl _⟩
    next part _ =>
      obtain ⟨_ | a, ha, h⟩ := bind_eq_ok.mp h
      · cases h
      · cases h
        exact ⟨hr, hg, hb, le_of_readOpacity ha⟩
  · cases h

/-! ## Calls -/

/-- A text, but for the blanks around it, is a call of `rgb` or `rgba`, in letters of either case,
with these parts between its brackets. -/
def Calls (text : String) (parts : List String) : Prop :=
  ∃ name letter body, (Text.trim text).toList = name ++ letter ++ '(' :: (body ++ [')']) ∧
    name.length = 3 ∧ Text.lower (String.ofList name) = "rgb" ∧ letter ∈ [[], ['a'], ['A']] ∧
    ')' ∉ body ∧ parts = (Text.splitAt ',' (String.ofList body)).map Text.trim

/-- What stands after the name: `rgb` in any case, with an `a` or without, and the parenthesis. -/
theorem afterName?_eq_some_iff {cs after : List Char} : afterName? cs = some after ↔
    ∃ name letter, cs = name ++ letter ++ '(' :: after ∧ name.length = 3 ∧
      Text.lower (String.ofList name) = "rgb" ∧ letter ∈ [[], ['a'], ['A']] := by
  constructor
  · intro h
    unfold afterName? at h
    split at h
    next r g b rest =>
      split at h
      next hname =>
        split at h
        next body =>
          cases h
          exact ⟨[r, g, b], [], rfl, rfl, hname, by simp⟩
        next a body _ =>
          split at h
          next ha =>
            cases h
            exact ⟨[r, g, b], [a], rfl, rfl, hname, by simpa using ha⟩
          · cases h
        · cases h
      · cases h
    · cases h
  · rintro ⟨name, letter, rfl, hlength, hname, hletter⟩
    obtain ⟨r, g, b, rfl⟩ := List.length_eq_three.mp hlength
    simp only [List.mem_cons, List.not_mem_nil, or_false] at hletter
    -- without a letter the parenthesis stands at once, so that the first case of the reader applies
    rcases hletter with rfl | rfl | rfl
    all_goals
      simp only [List.cons_append, List.nil_append, afterName?]
      rw [if_pos hname]
    · exact if_pos (Or.inl rfl)
    · exact if_pos (Or.inr rfl)

/-- The body reaches up to the last character, which closes it, with no other closing parenthesis in
it. -/
theorem functionBody?_eq_some_iff {cs body : List Char} : functionBody? cs = some body ↔
    afterName? cs = some (body ++ [')']) ∧ ')' ∉ body := by
  unfold functionBody?
  cases afterName? cs with
  | none => simp
  | some after =>
    rw [Option.map_some, Option.some_inj]
    constructor
    · intro h
      split at h
      next reversed hreversed =>
        split at h
        · cases h
        next hbody =>
          cases h
          rw [Option.some_inj] at hreversed
          rw [← List.reverse_inj, hreversed]
          simpa using hbody
      · cases h
    · rintro ⟨rfl, hbody⟩
      simp [hbody]

/-- Which texts are a call of `rgb`, as the reader takes them apart. -/
theorem calls_iff : Calls text parts ↔
    ∃ body, functionBody? (Text.trim text).toList = some body ∧
      parts = (Text.splitAt ',' (String.ofList body)).map Text.trim := by
  simp only [functionBody?_eq_some_iff, afterName?_eq_some_iff]
  constructor
  · rintro ⟨name, letter, body, htext, hlength, hname, hletter, hbody, hparts⟩
    exact ⟨body, ⟨⟨name, letter, htext, hlength, hname, hletter⟩, hbody⟩, hparts⟩
  · rintro ⟨body, ⟨⟨name, letter, htext, hlength, hname, hletter⟩, hbody⟩, hparts⟩
    exact ⟨name, letter, body, htext, hlength, hname, hletter, hbody, hparts⟩

/-- What begins with a number sign is no call. -/
private theorem functionBody?_cons_number_sign (digits : List Char) :
    functionBody? ('#' :: digits) = none := by
  have hname : afterName? ('#' :: digits) = none := by
    rw [Option.eq_none_iff_forall_ne_some]
    intro after h
    obtain ⟨name, letter, hcs, hlength, hname, -⟩ := afterName?_eq_some_iff.mp h
    obtain ⟨r, g, b, rfl⟩ := List.length_eq_three.mp hlength
    cases hcs
    -- the sign is its own lower case
    have hfirst : Char.ofNat (Unicode.toLower 35) = 'r' := by
      simpa [Text.lower, Unicode.lowerText, Unicode.lowerFrom] using
        congrArg (fun s => s.toList.head?) hname
    exact absurd hfirst (by decide)
  rw [functionBody?, hname]
  rfl

/-! ## Reading -/

private theorem le_of_hexValue? {char : Char} (h : hexValue? char = some n) : n ≤ 15 := by
  have hdigit : char ≤ '9' → char.toNat ≤ 57 := fun h => h
  have hsmall : char ≤ 'f' → char.toNat ≤ 102 := fun h => h
  have hlarge : char ≤ 'F' → char.toNat ≤ 70 := fun h => h
  unfold hexValue? at h
  grind

private theorem le_of_hexValues? {cs : List Char} {ns : List Nat} (h : hexValues? cs = some ns) :
    ∀ n ∈ ns, n ≤ 15 := by
  unfold hexValues? at h
  induction cs generalizing ns with
  | nil =>
    cases h
    simp
  | cons char rest ih =>
    rw [List.mapM_cons] at h
    obtain ⟨n, hn, h⟩ := Option.bind_eq_some_iff.mp h
    obtain ⟨ns, hns, h⟩ := Option.bind_eq_some_iff.mp h
    cases h
    exact List.forall_mem_cons.mpr ⟨le_of_hexValue? hn, ih hns⟩

theorem valid_of_ofHexValues {ns : List Nat} (hns : ∀ n ∈ ns, n ≤ 15)
    (h : ofHexValues ns = some c) : c.Valid := by
  unfold ofHexValues at h
  split at h
  all_goals cases h
  all_goals
    simp only [List.mem_cons, List.not_mem_nil, or_false, forall_eq_or_imp, forall_eq] at hns
    constructor <;> dsimp only <;> omega

/-- A hexadecimal text gives bytes, in each of its lengths. -/
theorem valid_of_ofHash? {cs : List Char} (h : ofHash? cs = some c) : c.Valid := by
  unfold ofHash? at h
  split at h
  next digits =>
    obtain ⟨ns, hns, hc⟩ := Option.bind_eq_some_iff.mp h
    exact valid_of_ofHexValues (le_of_hexValues? hns) hc
  · cases h

/-- A call does not begin with a number sign. -/
theorem functionBody?_of_ofHash? {cs : List Char} (h : ofHash? cs = some c) :
    functionBody? cs = none := by
  unfold ofHash? at h
  split at h
  next digits => exact functionBody?_cons_number_sign digits
  · cases h

variable {palette : Palette}

/-- What reading a text comes to: it is a call, or it is a color or none. -/
theorem read_cases (palette : Palette) (text : String) :
    (∃ parts, Calls text parts ∧ read palette text = ofParts parts) ∨
    (∀ parts, ¬ Calls text parts) ∧
      ∃ found, read palette text = .ok found ∧ (palette.Valid → ∀ c ∈ found, c.Valid) := by
  unfold read
  dsimp only
  cases hbody : functionBody? (Text.trim text).toList with
  | some body =>
    refine Or.inl ⟨_, calls_iff.mpr ⟨body, hbody, rfl⟩, ?_⟩
    -- digits are looked for first, but no call begins with a number sign
    cases hhash : ofHash? (Text.trim text).toList with
    | some color =>
      rw [functionBody?_of_ofHash? hhash] at hbody
      cases hbody
    | none => rfl
  | none =>
    refine Or.inr ⟨fun parts hcalls => ?_, ?_⟩
    · obtain ⟨body, hbody', -⟩ := calls_iff.mp hcalls
      cases hbody.symm.trans hbody'
    · cases hhash : ofHash? (Text.trim text).toList with
      | some color =>
        refine ⟨_, rfl, fun _ c hc => ?_⟩
        cases hc
        exact valid_of_ofHash? hhash
      | none =>
        refine ⟨_, rfl, fun hpalette c hc => ?_⟩
        split at hc
        · cases hc
        · exact hpalette _ c hc

/-- A text has its parts in one way. -/
theorem Calls.unique {parts' : List String} (h : Calls text parts) (h' : Calls text parts') :
    parts = parts' := by
  obtain ⟨body, hbody, rfl⟩ := calls_iff.mp h
  obtain ⟨body', hbody', rfl⟩ := calls_iff.mp h'
  cases hbody.symm.trans hbody'
  rfl

/-- A text calls `rgb` or `rgba` with an infinite number, where it counts. -/
def Overflows (text : String) : Prop := ∃ parts, Calls text parts ∧ Fails parts

/-- Whatever the host knows, reading a text fails for that reason alone. -/
theorem failsIf_read (palette : Palette) (text : String) :
    FailsIf (read palette text) (Overflows text) := by
  rcases read_cases palette text with ⟨parts, hcalls, hread⟩ | ⟨hcalls, found, hread, -⟩
  · rw [hread]
    refine (failsIf_ofParts parts).congr ⟨fun h => ⟨parts, hcalls, h⟩, ?_⟩
    rintro ⟨parts', hcalls', h⟩
    exact hcalls.unique hcalls' ▸ h
  · rw [hread]
    exact (failsIf_ok _).congr ⟨False.elim, fun ⟨parts, h, _⟩ => hcalls parts h⟩

/-- A color that is read is valid, where the palette knows valid ones only. -/
theorem valid_of_read (hpalette : palette.Valid) (h : read palette text = .ok (some c)) :
    c.Valid := by
  rcases read_cases palette text with ⟨parts, -, hread⟩ | ⟨-, found, hread, hvalid⟩
  · exact valid_of_ofParts (hread.symm.trans h)
  · cases hread.symm.trans h
    exact hvalid hpalette c rfl

end Color

end Conceal
