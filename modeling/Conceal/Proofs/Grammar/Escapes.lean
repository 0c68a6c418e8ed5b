import Conceal.Proofs.Grammar.Faults

/-!
The pattern that ends a block, read by its escapes. A backslash goes with what stands behind it:
with all the digits there, as a reference to a group, or else with one character. So of two
backslashes in a row the second one begins nothing, and digits behind them are no reference.
References are looked for without regard to that. Main statement: `substituted_iff`, by which they
are replaced as they are read exactly where no escaped backslash stands before a digit.
-/

namespace Conceal.Grammar

/-! ## Pieces of a source -/

/-- Is a character a decimal digit, of any script? -/
def IsDigit (c : Char) : Prop := (Unicode.decimalValue? c.toNat).isSome

instance (c : Char) : Decidable (IsDigit c) := by
  unfold IsDigit
  infer_instance

/-- The values of digits. -/
def digitValues (ds : List Char) : List Nat := ds.filterMap fun d => Unicode.decimalValue? d.toNat

/-- A piece of the source of a pattern. -/
inductive Piece where
  | plain (c : Char)
  /-- A backslash and the character behind it. -/
  | escaped (c : Char)
  /-- A backslash and the digits behind it. -/
  | reference (digits : List Char)
deriving DecidableEq, Repr

/-- Reading a source from left to right. A backslash goes with all digits that stand behind it, or
else with one character; only the last character can be a backslash alone. -/
inductive Reads : List Char → List Piece → Prop
  | nil : Reads [] []
  | last : Reads ['\\'] [.plain '\\']
  | plain {c : Char} {cs : List Char} {ps : List Piece} (hc : c ≠ '\\') (h : Reads cs ps) :
      Reads (c :: cs) (.plain c :: ps)
  | escaped {c : Char} {cs : List Char} {ps : List Piece} (hc : ¬ IsDigit c) (h : Reads cs ps) :
      Reads ('\\' :: c :: cs) (.escaped c :: ps)
  | reference {ds cs : List Char} {ps : List Piece} (hds : ds ≠ []) (hdigits : ∀ d ∈ ds, IsDigit d)
      (hcs : ∀ c ∈ cs.head?, ¬ IsDigit c) (h : Reads cs ps) :
      Reads ('\\' :: (ds ++ cs)) (.reference ds :: ps)

/-- An escaped backslash stands before a digit. -/
def Clashes (ps : List Piece) : Prop :=
  ∃ before c after, ps = before ++ .escaped '\\' :: .plain c :: after ∧ IsDigit c

/-- A piece with a text in place of a reference. -/
def Piece.resolve {m : Type → Type} [Monad m] (value : List Nat → m (List Char)) :
    Piece → m (List Char)
  | .plain c => pure [c]
  | .escaped c => pure ['\\', c]
  | .reference ds => value (digitValues ds)

/-- A source with texts in place of its references, all else as it is. -/
def substitute {m : Type → Type} [Monad m] (value : List Nat → m (List Char)) :
    List Piece → m (List Char)
  | [] => pure []
  | p :: rest => do
    let text ← p.resolve value
    return text ++ (← substitute value rest)

private theorem not_isDigit_backslash : ¬ IsDigit '\\' := by decide

private theorem digitValues_cons {d : Char} {v : Nat} (h : Unicode.decimalValue? d.toNat = some v)
    (ds : List Char) : digitValues (d :: ds) = v :: digitValues ds := by
  simp [digitValues, h]

/-- Every digit has a value. -/
theorem length_digitValues {ds : List Char} (h : ∀ d ∈ ds, IsDigit d) :
    (digitValues ds).length = ds.length := by
  induction ds with
  | nil => rfl
  | cons d rest ih =>
    obtain ⟨v, hv⟩ := Option.isSome_iff_exists.mp (h d List.mem_cons_self)
    rw [digitValues_cons hv, List.length_cons, List.length_cons,
      ih fun d' hd' => h d' (List.mem_cons_of_mem d hd')]

/-- The digits at the front are all of them if no digit follows. -/
private theorem leadingDigits_append {ds cs : List Char} (hds : ∀ d ∈ ds, IsDigit d)
    (hcs : ∀ c ∈ cs.head?, ¬ IsDigit c) : leadingDigits (ds ++ cs) = digitValues ds := by
  induction ds with
  | nil =>
    cases cs with
    | nil => rfl
    | cons c rest =>
      have hnone : Unicode.decimalValue? c.toNat = none := by
        simpa [IsDigit] using hcs c rfl
      simp [leadingDigits, hnone, digitValues]
  | cons d rest ih =>
    obtain ⟨v, hv⟩ := Option.isSome_iff_exists.mp (hds d List.mem_cons_self)
    rw [List.cons_append, leadingDigits, hv, digitValues_cons hv]
    exact congrArg (v :: ·) (ih fun d' hd' => hds d' (List.mem_cons_of_mem d hd'))

private theorem leadingDigits_eq_nil {cs : List Char} (h : ∀ c ∈ cs.head?, ¬ IsDigit c) :
    leadingDigits cs = [] :=
  @leadingDigits_append [] cs (by simp) h

/-- The digits at the front of a text and the rest. -/
theorem exists_digits (cs : List Char) : ∃ ds rest, cs = ds ++ rest ∧ (∀ d ∈ ds, IsDigit d) ∧
    ∀ c ∈ rest.head?, ¬ IsDigit c := by
  induction cs with
  | nil => exact ⟨[], [], rfl, by simp, by simp⟩
  | cons c cs ih =>
    by_cases hc : IsDigit c
    · obtain ⟨ds, rest, rfl, hds, hrest⟩ := ih
      exact ⟨c :: ds, rest, rfl, List.forall_mem_cons.mpr ⟨hc, hds⟩, hrest⟩
    · refine ⟨[], c :: cs, rfl, by simp, fun c' hc' => ?_⟩
      rwa [← Option.some.inj hc']

/-- Every source can be read. -/
theorem exists_reads (cs : List Char) : ∃ ps, Reads cs ps := by
  match cs with
  | [] => exact ⟨_, .nil⟩
  | c :: rest =>
    by_cases hc : c = '\\'
    · subst hc
      obtain ⟨ds, cs', hcs', hds, hhead⟩ := exists_digits rest
      by_cases hnil : ds = []
      · -- no digit stands behind the backslash
        obtain rfl : rest = cs' := by rw [hcs', hnil, List.nil_append]
        cases rest with
        | nil => exact ⟨_, .last⟩
        | cons d rest' =>
          obtain ⟨ps, hps⟩ := exists_reads rest'
          exact ⟨_, .escaped (hhead d rfl) hps⟩
      · have hshorter : cs'.length ≤ rest.length := by rw [hcs', List.length_append]; omega
        obtain ⟨ps, hps⟩ := exists_reads cs'
        rw [hcs']
        exact ⟨_, .reference hnil hds hhead hps⟩
    · obtain ⟨ps, hps⟩ := exists_reads rest
      exact ⟨_, .plain hc hps⟩
termination_by cs.length
decreasing_by all_goals simp only [List.length_cons]; omega

/-- A text splits in one way only into digits and a rest that begins with none. -/
theorem digits_unique {ds ds' cs cs' : List Char} (h : ds ++ cs = ds' ++ cs')
    (hds : ∀ d ∈ ds, IsDigit d) (hds' : ∀ d ∈ ds', IsDigit d) (hcs : ∀ c ∈ cs.head?, ¬ IsDigit c)
    (hcs' : ∀ c ∈ cs'.head?, ¬ IsDigit c) : ds = ds' ∧ cs = cs' := by
  have hvalues : digitValues ds = digitValues ds' := by
    rw [← leadingDigits_append hds hcs, h, leadingDigits_append hds' hcs']
  have hlength : ds.length = ds'.length := by
    rw [← length_digitValues hds, hvalues, length_digitValues hds']
  exact List.append_inj h hlength

/-- A source can be read in one way only. -/
theorem reads_unique {cs : List Char} {ps qs : List Piece} (h : Reads cs ps) (h' : Reads cs qs) :
    ps = qs := by
  induction h generalizing qs with
  | nil => cases h'; rfl
  | last =>
    -- the text is generalized first, as its shape decides between the pieces
    generalize hcs : ['\\'] = cs at h'
    cases h' with
    | nil => cases hcs
    | last => rfl
    | plain hc _ => cases hcs; exact absurd rfl hc
    | escaped _ _ => cases hcs
    | @reference ds _ _ hnil _ _ _ =>
      simp at hcs
      exact absurd hcs.1 hnil
  | @plain c cs ps hc _ ih =>
    generalize hwhole : c :: cs = whole at h'
    cases h' with
    | nil => cases hwhole
    | last => cases hwhole; exact absurd rfl hc
    | plain _ h' => cases hwhole; rw [ih h']
    | escaped _ _ => cases hwhole; exact absurd rfl hc
    | reference _ _ _ _ => cases hwhole; exact absurd rfl hc
  | @escaped c cs ps hc _ ih =>
    generalize hwhole : '\\' :: c :: cs = whole at h'
    cases h' with
    | nil => cases hwhole
    | last => cases hwhole
    | plain hc' _ => cases hwhole; exact absurd rfl hc'
    | escaped _ h' => cases hwhole; rw [ih h']
    | @reference ds cs' _ hnil hdigits hcs' _ =>
      cases ds with
      | nil => exact absurd rfl hnil
      | cons d ds =>
        cases hwhole
        exact absurd (hdigits _ List.mem_cons_self) hc
  | @reference ds cs ps hnil hdigits hcs _ ih =>
    generalize hwhole : '\\' :: (ds ++ cs) = whole at h'
    cases h' with
    | nil => cases hwhole
    | last => simp [hnil] at hwhole
    | plain hc' _ => cases hwhole; exact absurd rfl hc'
    | @escaped c' cs' _ hc' _ =>
      cases ds with
      | nil => exact absurd rfl hnil
      | cons d ds =>
        cases hwhole
        exact absurd (hdigits _ List.mem_cons_self) hc'
    | @reference ds' cs' ps' _ hdigits' hcs' h' =>
      -- both take the digits as far as they go
      obtain ⟨rfl, rfl⟩ := digits_unique (List.cons.inj hwhole).2 hdigits hdigits' hcs hcs'
      rw [ih h']

/-! ## References that are read -/

/-- Pieces clash right at the front, or further on. -/
theorem clashes_cons {p : Piece} {ps : List Piece} : Clashes (p :: ps) ↔
    (p = .escaped '\\' ∧ ∃ c rest, ps = .plain c :: rest ∧ IsDigit c) ∨ Clashes ps := by
  constructor
  · rintro ⟨before, c, after, hps, hc⟩
    cases before with
    | nil =>
      cases hps
      exact Or.inl ⟨rfl, c, after, rfl, hc⟩
    | cons _ before =>
      cases hps
      exact Or.inr ⟨before, c, after, rfl, hc⟩
  · rintro (⟨rfl, c, rest, rfl, hc⟩ | ⟨before, c, after, rfl, hc⟩)
    · exact ⟨[], c, rest, rfl, hc⟩
    · exact ⟨p :: before, c, after, rfl, hc⟩

theorem not_clashes_nil : ¬ Clashes [] := by
  rintro ⟨before, c, after, h, _⟩
  cases before <;> cases h

/-- At the front only an escaped backslash can clash. -/
theorem clashes_cons_of_ne {p : Piece} {ps : List Piece} (hp : p ≠ .escaped '\\') :
    Clashes (p :: ps) ↔ Clashes ps := by
  rw [clashes_cons]
  exact or_iff_right fun h => hp h.1

/-- A source begins with a digit exactly where its first piece is one. -/
theorem reads_digit {cs : List Char} {ps : List Piece} (h : Reads cs ps) :
    (∃ c rest, ps = .plain c :: rest ∧ IsDigit c) ↔ ∃ c ∈ cs.head?, IsDigit c := by
  cases h <;> simp [not_isDigit_backslash]

section Replacing

variable {m : Type → Type} [Monad m] {value : List Nat → m (List Char)} {c : Char}
  {ds cs : List Char} {ps : List Piece}

/-- Characters that belong to a reference are passed over. -/
theorem replaceReferences_skip (ds cs : List Char) :
    replaceReferences value ds.length (ds ++ cs) = replaceReferences value 0 cs := by
  induction ds with
  | nil => rfl
  | cons d ds ih => exact ih

/-- A character that is no backslash is copied. -/
theorem replaceReferences_plain (hc : c ≠ '\\') (cs : List Char) :
    replaceReferences value 0 (c :: cs) = do return c :: (← replaceReferences value 0 cs) := by
  simp [replaceReferences, hc]

/-- A backslash without a digit behind it is copied. -/
theorem replaceReferences_backslash (hcs : ∀ c ∈ cs.head?, ¬ IsDigit c) :
    replaceReferences value 0 ('\\' :: cs) =
      do return '\\' :: (← replaceReferences value 0 cs) := by
  simp [replaceReferences, leadingDigits_eq_nil hcs]

/-- A backslash and all digits behind it are replaced by a text. -/
theorem replaceReferences_reference (hnil : ds ≠ []) (hds : ∀ d ∈ ds, IsDigit d)
    (hcs : ∀ c ∈ cs.head?, ¬ IsDigit c) :
    replaceReferences value 0 ('\\' :: (ds ++ cs)) = do
      let text ← value (digitValues ds)
      return text ++ (← replaceReferences value 0 cs) := by
  have hlength : (digitValues ds).length = ds.length := length_digitValues hds
  have hvalues : digitValues ds ≠ [] := by
    intro h
    rw [h] at hlength
    exact hnil (List.length_eq_zero_iff.mp hlength.symm)
  simp [replaceReferences, leadingDigits_append hds hcs, hvalues, hlength, replaceReferences_skip]

/-- Where no escaped backslash stands before a digit, references are replaced as they are read. -/
theorem replaceReferences_eq_substitute [LawfulMonad m] (h : Reads cs ps) (hps : ¬ Clashes ps) :
    replaceReferences value 0 cs = substitute value ps := by
  induction h with
  | nil => rfl
  | last =>
    rw [replaceReferences_backslash (by simp)]
    simp [replaceReferences, substitute, Piece.resolve]
  | @plain c cs ps hc _ ih =>
    rw [clashes_cons_of_ne (by simp)] at hps
    simp [replaceReferences_plain hc, ih hps, substitute, Piece.resolve]
  | @escaped c cs ps hc h ih =>
    rw [clashes_cons, not_or] at hps
    rw [replaceReferences_backslash (by simpa using hc)]
    by_cases hbackslash : c = '\\'
    · -- the second backslash is no reference, since no digit follows
      subst hbackslash
      have hcs : ∀ c ∈ cs.head?, ¬ IsDigit c := fun d hd hdigit =>
        hps.1 ⟨rfl, (reads_digit h).mpr ⟨d, hd, hdigit⟩⟩
      simp [replaceReferences_backslash hcs, ih hps.2, substitute, Piece.resolve]
    · simp [replaceReferences_plain hbackslash, ih hps.2, substitute, Piece.resolve]
  | @reference ds cs ps hnil hdigits hcs _ ih =>
    rw [clashes_cons_of_ne (by simp)] at hps
    simp [replaceReferences_reference hnil hdigits hcs, ih hps, substitute, Piece.resolve]

end Replacing

/-! ## References that are not -/

/-- A source with one text in place of every reference that is found in it. -/
def replaced (text cs : List Char) : List Char := replaceReferences (m := Id) (fun _ => text) 0 cs

/-- A source with one text in place of every reference as it is read. -/
def substituted (text : List Char) (ps : List Piece) : List Char :=
  substitute (m := Id) (fun _ => text) ps

section Constant

variable {text ds cs : List Char} {c : Char} {ps : List Piece}

@[simp]
theorem substituted_plain : substituted text (.plain c :: ps) = c :: substituted text ps := rfl

@[simp]
theorem substituted_escaped :
    substituted text (.escaped c :: ps) = '\\' :: c :: substituted text ps := rfl

@[simp]
theorem substituted_reference :
    substituted text (.reference ds :: ps) = text ++ substituted text ps := rfl

private theorem replaced_plain (hc : c ≠ '\\') (cs : List Char) :
    replaced text (c :: cs) = c :: replaced text cs :=
  replaceReferences_plain hc cs

private theorem replaced_backslash (hcs : ∀ c ∈ cs.head?, ¬ IsDigit c) :
    replaced text ('\\' :: cs) = '\\' :: replaced text cs :=
  replaceReferences_backslash hcs

private theorem replaced_reference (hnil : ds ≠ []) (hds : ∀ d ∈ ds, IsDigit d)
    (hcs : ∀ c ∈ cs.head?, ¬ IsDigit c) :
    replaced text ('\\' :: (ds ++ cs)) = text ++ replaced text cs :=
  replaceReferences_reference hnil hds hcs

/-- Digits are no references. -/
private theorem replaced_digits (hds : ∀ d ∈ ds, IsDigit d) (cs : List Char) :
    replaced text (ds ++ cs) = ds ++ replaced text cs := by
  induction ds with
  | nil => rfl
  | cons d ds ih =>
    have hd : d ≠ '\\' := by
      rintro rfl
      exact not_isDigit_backslash (hds _ List.mem_cons_self)
    rw [List.cons_append, replaced_plain hd,
      ih fun d' hd' => hds d' (List.mem_cons_of_mem d hd')]
    rfl

/-- An escaped backslash before a digit is lost, and the digits with it: what is found in place of
them is at most one character. -/
theorem length_replaced (htext : text.length ≤ 1) (h : Reads cs ps) :
    (replaced text cs).length ≤ (substituted text ps).length ∧
      (Clashes ps → (replaced text cs).length < (substituted text ps).length) := by
  induction h with
  | nil => exact ⟨le_rfl, fun h => absurd h not_clashes_nil⟩
  | last =>
    rw [replaced_backslash (by simp), clashes_cons_of_ne (by simp)]
    exact ⟨le_rfl, fun h => absurd h not_clashes_nil⟩
  | @plain c cs ps hc _ ih =>
    rw [replaced_plain hc, clashes_cons_of_ne (by simp)]
    simpa using ih
  | @escaped c cs ps hc h ih =>
    rw [replaced_backslash (by simpa using hc)]
    by_cases hbackslash : c = '\\'
    · subst hbackslash
      obtain ⟨ds, rest, rfl, hds, hrest⟩ := exists_digits cs
      by_cases hnil : ds = []
      · -- the second backslash is no reference, since no digit follows
        subst hnil
        rw [List.nil_append] at h ih ⊢
        have hno : ¬ ∃ c qs, ps = .plain c :: qs ∧ IsDigit c := by
          rw [reads_digit h]
          exact fun ⟨d, hd, hdigit⟩ => hrest d hd hdigit
        rw [replaced_backslash hrest, clashes_cons, or_iff_right fun h => hno h.2]
        simpa using ih
      · -- the digits after an escaped backslash are lost in a reference, of one character at most
        have hshort := ih.1
        rw [replaced_digits hds, List.length_append] at hshort
        have hpos : 0 < ds.length := List.length_pos_iff.mpr hnil
        have hlost : (replaced text ('\\' :: (ds ++ rest))).length + 1 ≤
            (substituted text ps).length + 1 := by
          rw [replaced_reference hnil hds hrest, List.length_append]
          omega
        simp only [substituted_escaped, List.length_cons]
        omega
    · rw [replaced_plain hbackslash, clashes_cons_of_ne (by simpa using hbackslash)]
      simpa using ih
  | @reference ds cs ps hnil hdigits hcs _ ih =>
    rw [replaced_reference hnil hdigits hcs, clashes_cons_of_ne (by simp)]
    simpa using ih

/-- A text of one character at most takes the place of the references that are read, and of nothing
else, exactly where no escaped backslash stands before a digit. -/
theorem replaced_eq_iff (htext : text.length ≤ 1) (h : Reads cs ps) :
    replaced text cs = substituted text ps ↔ ¬ Clashes ps := by
  constructor
  · intro heq hclash
    have hless := (length_replaced htext h).2 hclash
    rw [heq] at hless
    exact lt_irrefl _ hless
  · exact replaceReferences_eq_substitute h

end Constant

/-! ## The end of a block -/

/-- The text of a group, made safe for a pattern; nothing for a group that is missing or took no
part. -/
def groupText (text : Array Char) (m : Regex.Found) (ds : List Nat) : List Char :=
  match m.span? (Number.digitsValue ds) with
  | some (a, b) => Regex.escape (text.extract a b).toList
  | none => []

section Ends

variable {text : Array Char} {m : Regex.Found} {cs : List Char} {ps : List Piece}

/-- A reference has a text as long as its number is not too long to be read. -/
theorem referenceText_eq_ok_iff {ds : List Nat} {value : List Char} :
    referenceText text m ds = .ok value ↔
      ds.length ≤ Number.maxDigits ∧ value = groupText text m ds := by
  unfold referenceText groupText
  split
  next hlong => simp [hlong]
  next hlong => cases m.span? (Number.digitsValue ds) <;> simp [not_lt.mp hlong, eq_comm]

/-- Texts of groups take the places of references if no number among them is too long. -/
theorem substitute_eq_ok_iff {t : List Char} : substitute (referenceText text m) ps = .ok t ↔
    (∀ ds, .reference ds ∈ ps → (digitValues ds).length ≤ Number.maxDigits) ∧
      t = substitute (m := Id) (groupText text m) ps := by
  induction ps generalizing t with
  | nil =>
    rw [substitute]
    simp [substitute, pure, Except.pure, eq_comm]
  | cons p ps ih =>
    -- only a reference can fail, by a number with too many digits
    have hpiece : ∀ value, p.resolve (referenceText text m) = .ok value ↔
        (∀ ds, .reference ds = p → (digitValues ds).length ≤ Number.maxDigits) ∧
          value = p.resolve (m := Id) (groupText text m) := by
      intro value
      cases p with
      | plain c => simp [Piece.resolve, pure, Except.pure, eq_comm]
      | escaped c => simp [Piece.resolve, pure, Except.pure, eq_comm]
      | reference ds => simp [Piece.resolve, referenceText_eq_ok_iff]
    have hparts : substitute (referenceText text m) (p :: ps) = .ok t ↔
        ∃ value, p.resolve (referenceText text m) = .ok value ∧
          ∃ rest, substitute (referenceText text m) ps = .ok rest ∧ value ++ rest = t := by
      simp [substitute, bind_eq_ok, pure, Except.pure]
    rw [hparts]
    simp only [hpiece, ih]
    constructor
    · rintro ⟨value, ⟨hfirst, hvalue⟩, rest, ⟨hlater, hrest⟩, rfl⟩
      refine ⟨fun ds hds => ?_, by rw [hvalue, hrest]; rfl⟩
      rcases List.mem_cons.mp hds with h | h
      · exact hfirst ds h
      · exact hlater ds h
    · rintro ⟨hshort, rfl⟩
      exact ⟨_, ⟨fun ds hds => hshort ds (List.mem_cons.mpr (Or.inl hds)), rfl⟩, _,
        ⟨fun ds hds => hshort ds (List.mem_cons_of_mem p hds), rfl⟩, rfl⟩

/-- References are made of digits. -/
theorem isDigit_of_reads (h : Reads cs ps) {ds : List Char} (hds : .reference ds ∈ ps) :
    ∀ d ∈ ds, IsDigit d := by
  induction h with
  | nil => simp at hds
  | last => simp at hds
  | plain _ _ ih => exact ih (by simpa using hds)
  | escaped _ _ ih => exact ih (by simpa using hds)
  | reference _ hdigits _ _ ih =>
    rcases List.mem_cons.mp hds with h | h
    · cases h
      exact hdigits
    · exact ih h

/-- In a text without characters all groups are empty. -/
theorem groupText_empty (ds : List Nat) : groupText #[] m ds = [] := by
  unfold groupText
  split
  · simp [Regex.escape]
  · rfl

/-- If references are replaced at all, each is replaced by the text of its group. -/
theorem replaceReferences_of_ok {t : List Char} {skip : Nat}
    (h : replaceReferences (referenceText text m) skip cs = .ok t) :
    t = replaceReferences (m := Id) (groupText text m) skip cs := by
  induction cs generalizing skip t with
  | nil => cases skip <;> cases h <;> rfl
  | cons c cs ih =>
    cases skip with
    | succ skip => exact ih h
    | zero =>
      unfold replaceReferences at h ⊢
      dsimp only at h ⊢
      split at h
      next hfound =>
        obtain ⟨value, hvalue, h⟩ := bind_eq_ok.mp h
        obtain ⟨rest, hrest, h⟩ := bind_eq_ok.mp h
        cases h
        rw [if_pos hfound, (referenceText_eq_ok_iff.mp hvalue).2, ih hrest]
        rfl
      next hfound =>
        obtain ⟨rest, hrest, h⟩ := bind_eq_ok.mp h
        cases h
        rw [if_neg hfound, ih hrest]
        rfl

/-- The end of a block that opens is its source with the references replaced. -/
theorem stateAfter_eq_ok_iff {c : Choice} {pattern : Regex} {source : String} {frame : Frame}
    {state : LineState} {ending : List Char} (hkind : c.kind = .rule)
    (hopens : c.rule.beginning = some pattern) (hsource : c.rule.endSource = some source) :
    c.stateAfter text frame state = .ok (state.push ⟨c.rule.id, c.scopes frame,
        c.scopes frame ++ c.rule.contentName.toList, some (String.ofList ending)⟩) ↔
      replaceReferences (referenceText text c.found) 0 source.toList = .ok ending := by
  simp [Choice.stateAfter, hkind, hopens, hsource, resolveEnd, bind_eq_ok, pure, Except.pure,
    LineState.push, String.ofList_inj]

end Ends

/-- Every block of a source ends with it as it is read, the texts of groups in place of its
references. -/
def EndsAs (source : String) (ps : List Piece) : Prop :=
  ∀ (c : Choice) (pattern : Regex) (text : Array Char) (pos : Nat) (frame : Frame)
    (state : LineState), c.kind = .rule → c.rule.beginning = some pattern →
    c.rule.endSource = some source → pattern.search? text pos = some c.found →
    c.stateAfter text frame state = .ok (state.push ⟨c.rule.id, c.scopes frame,
      c.scopes frame ++ c.rule.contentName.toList,
      some (String.ofList (substitute (m := Id) (groupText text c.found) ps))⟩)

/-- An end is what its pieces say, unless pieces clash or a number is too long to be read. -/
theorem endsAs_iff {source : String} {ps : List Piece} (h : Reads source.toList ps) :
    EndsAs source ps ↔
      ¬ Clashes ps ∧ ∀ ds, .reference ds ∈ ps → ds.length ≤ Number.maxDigits := by
  have hdigits : ∀ ds, .reference ds ∈ ps → (digitValues ds).length = ds.length :=
    fun ds hds => length_digitValues (isDigit_of_reads h hds)
  constructor
  · intro hends
    -- a block that opens at an empty match in an empty text, where every group is empty
    let rule : Rule := { id := 0, beginning := some ⟨.empty, 0⟩, endSource := some source }
    have hfound : (⟨.empty, 0⟩ : Regex).search? #[] 0 = some ⟨0, 0, #[none]⟩ := by decide +kernel
    have hok := (stateAfter_eq_ok_iff rfl rfl rfl).mp (hends ⟨.rule, rule, ⟨0, 0, #[none]⟩, 0⟩
      ⟨.empty, 0⟩ #[] 0 default default rfl rfl rfl hfound)
    have hgroups : groupText #[] ⟨0, 0, #[none]⟩ = fun _ => [] := funext groupText_empty
    have hclash : ¬ Clashes ps := by
      have heq := replaceReferences_of_ok hok
      rw [hgroups] at heq
      exact (replaced_eq_iff (by simp) h).mp heq.symm
    rw [replaceReferences_eq_substitute h hclash] at hok
    have hshort := (substitute_eq_ok_iff.mp hok).1
    exact ⟨hclash, fun ds hds => hdigits ds hds ▸ hshort ds hds⟩
  · rintro ⟨hclash, hshort⟩ c pattern text pos frame state hkind hopens hsource _
    rw [stateAfter_eq_ok_iff hkind hopens hsource, replaceReferences_eq_substitute h hclash,
      substitute_eq_ok_iff]
    exact ⟨fun ds hds => (hdigits ds hds).symm ▸ hshort ds hds, rfl⟩

/-- A source can be read in one way. All blocks end with it as it is read exactly where no escaped
backslash stands before a digit and no reference is too long, and it is tried as it is read exactly
where no escaped backslash stands before a digit. -/
theorem substituted_iff (source : String) : ∃ ps, (∀ qs, Reads source.toList qs ↔ qs = ps) ∧
    (EndsAs source ps ↔
      ¬ Clashes ps ∧ ∀ ds, .reference ds ∈ ps → ds.length ≤ Number.maxDigits) ∧
    (withoutReferences source = String.ofList (substitute (m := Id) (fun _ => ['x']) ps) ↔
      ¬ Clashes ps) := by
  obtain ⟨ps, h⟩ := exists_reads source.toList
  refine ⟨ps, fun qs => ⟨fun h' => reads_unique h' h, fun hqs => hqs ▸ h⟩, endsAs_iff h, ?_⟩
  rw [withoutReferences, String.ofList_inj]
  exact replaced_eq_iff le_rfl h

/-- A block that ends with a backslash, a digit and two letters. -/
def escapedDigit : Json :=
  .obj [("scopeName", .str "s"), ("patterns", .arr [.obj [("begin", .str "(b)"),
    ("end", .str "\\\\1ff"), ("name", .str "x")]])]

/-- The digit behind an escaped backslash is taken for a reference, and the backslash before it
escapes the text of the group. -/
theorem escaped_backslash_replaced :
    ∃ (g : Grammar) (r : LineTokens) (f : Frame) (ps : List Piece),
      ofJson anonymous escapedDigit = .ok g ∧ g.tokenizeLine "b" = .ok r ∧
      r.state.top? = some f ∧ Reads "\\\\1ff".toList ps ∧
      (∀ value, substitute (m := Id) value ps = "\\\\1ff".toList) ∧
      f.endSource = some "\\bff" ∧ withoutReferences "\\\\1ff" = "\\xff" := by
  have hrun : (do
      let g ← ofJson anonymous escapedDigit
      let r ← g.tokenizeLine "b"
      return r.state.top?.bind Frame.endSource).toOption = some (some "\\bff") := by
    decide +kernel
  obtain ⟨g, hg, hrun⟩ := toOption_bind_eq_some.mp hrun
  obtain ⟨r, hr, hrun⟩ := toOption_bind_eq_some.mp hrun
  simp only [pure, Except.pure, Except.toOption, Option.some.injEq] at hrun
  obtain ⟨f, htop, hending⟩ := Option.bind_eq_some_iff.mp hrun
  have hreads : Reads "\\\\1ff".toList [.escaped '\\', .plain '1', .plain 'f', .plain 'f'] :=
    .escaped (by decide) (.plain (by decide) (.plain (by decide) (.plain (by decide) .nil)))
  exact ⟨g, r, f, _, hg, hr, htop, hreads, fun _ => rfl, hending, by decide⟩

end Conceal.Grammar
