import Conceal.Proofs.Masking.Keys

/-!
How selections reveal matches. Only the ends of selections in ascending order matter, and which of
them there are. Whether a selection reaches a match does not depend on the other selections, so one
selection more is as if the matches that it reaches were not there. Main statement:
`decorates_for_selections`.
-/

namespace Conceal

/-- Selections given in another way: with the ends of one exchanged, in another order, or with one
given twice. -/
inductive Regiven : List (Int × Int) → List (Int × Int) → Prop
  | reversed (before after : List (Int × Int)) (anchor active : Int) :
      Regiven (before ++ (anchor, active) :: after) (before ++ (active, anchor) :: after)
  | permuted {ends ends' : List (Int × Int)} (h : ends.Perm ends') : Regiven ends ends'
  | doubled (s : Int × Int) (ends : List (Int × Int)) : Regiven (s :: ends) (s :: s :: ends)
  | symm {ends ends' : List (Int × Int)} (h : Regiven ends ends') : Regiven ends' ends
  | trans {ends ends' ends'' : List (Int × Int)} (h : Regiven ends ends')
      (h' : Regiven ends' ends'') : Regiven ends ends''

/-- Does a selection reach a stretch, or the place before it where the caret is no line? -/
def Reaches (caretStyle : String) (s : Int × Int) (stretch : Stretch) : Prop :=
  min s.1 s.2 ≤ stretch.stop ∧
    (if "line".toList <+: caretStyle.toList then stretch.start else stretch.start - 1) ≤
      max s.1 s.2

instance (caretStyle : String) (s : Int × Int) (stretch : Stretch) :
    Decidable (Reaches caretStyle s stretch) := by
  unfold Reaches
  infer_instance

/-- The ends of selections in ascending order. -/
def ascending (ends : List (Int × Int)) : List (Int × Int) :=
  ends.map fun (anchor, active) => orderEnds anchor active

/-- Selections given in another way have the same ends in ascending order. -/
theorem Regiven.mem_ascending_iff {ends ends' : List (Int × Int)} (h : Regiven ends ends')
    (s : Int × Int) : s ∈ ascending ends' ↔ s ∈ ascending ends := by
  induction h with
  | reversed before after anchor active =>
    simp only [ascending, List.map_append, List.map_cons, Entry.orderEnds_eq,
      Int.min_comm active anchor, Int.max_comm active anchor]
  | permuted h => exact ((h.map _).mem_iff).symm
  | doubled t ends => simp [ascending]
  | symm _ ih => exact ih.symm
  | trans _ _ ih ih' => exact ih'.trans ih

namespace Entry

open Masking

/-- The matches that an entry decorates, unless one fails. -/
def decorates (x : Entry) (v : Scene) : Except Fault (List Placement) :=
  match failure? (x.decided v) with
  | some fault => .error fault
  | none => .ok (placements (x.decided v))

end Entry

namespace Masking

/-! ## Fewer matches -/

/-- Where some more matches are revealed, it is decided as if those were not there. -/
theorem decisions_of_revealed {v : Sight} {selections : List (Int × Int)} {early : Bool}
    {hidden : Regex.Found → Bool} {found : List Regex.Found}
    (h : ∀ m ∈ found, isRevealed m.start m.stop selections early =
      (isRevealed m.start m.stop v.selections v.early || hidden m))
    (seen : List (Nat × Option (List Token))) :
    decisions { v with selections, early } seen found =
      decisions v seen (found.filter fun m => !hidden m) := by
  induction found generalizing seen with
  | nil => rfl
  | cons m rest ih =>
    have hrest := ih fun m' hm' => h m' (List.mem_cons_of_mem m hm')
    have hm := h m List.mem_cons_self
    cases hhidden : hidden m with
    | true =>
      rw [hhidden, Bool.or_true] at hm
      rw [List.filter_cons_of_neg (by simp [hhidden]), ← hrest]
      simp [decisions, hm]
    | false =>
      rw [hhidden, Bool.or_false] at hm
      rw [List.filter_cons_of_pos (by simp [hhidden])]
      simp only [decisions, hm, hrest]

variable {v : Sight} {found : List Regex.Found}

/-- Some matches less are decorated less, and nothing else changes. -/
theorem placements_filter (hidden : Placement → Bool)
    (hok : failure? (decisions v [] found) = none) :
    failure? (decisions v [] (found.filter fun m => !hidden (placementOf v m))) = none ∧
      placements (decisions v [] (found.filter fun m => !hidden (placementOf v m))) =
        (placements (decisions v [] found)).filter fun p => !hidden p := by
  have hknown : Known v [] := fun _ _ h => by cases h
  rw [failure?_decisions hknown, List.findSome?_eq_none_iff] at hok
  have hverdict : ∀ m ∈ found, ∀ fault, verdict v m ≠ .error fault := by
    intro m hm fault hfault
    have hnone := hok m hm
    rw [hfault] at hnone
    cases hnone
  have hfewer : ∀ m ∈ found.filter (fun m => !hidden (placementOf v m)), ∀ fault,
      verdict v m ≠ .error fault := fun m hm => hverdict m (List.mem_of_mem_filter hm)
  constructor
  · rw [failure?_decisions hknown, List.findSome?_eq_none_iff]
    exact fun m hm => hok m (List.mem_of_mem_filter hm)
  · rw [placements_decisions hknown hfewer, placements_decisions hknown hverdict, List.filter_map,
      List.filter_filter, List.filter_filter]
    congr 1
    refine List.filter_congr fun m _ => ?_
    exact Bool.and_comm _ _

end Masking

/-! ## Other selections -/

namespace Entry

open Masking

variable {x : Entry} {v : Scene} {caretStyle : String} {ps : List Placement}

/-- Only which selections there are matters, not how often or in which order. -/
theorem isRevealed_of_mem_iff {selections selections' : List (Int × Int)}
    (h : ∀ s, s ∈ selections' ↔ s ∈ selections) (start stop : Int) (early : Bool) :
    isRevealed start stop selections' early = isRevealed start stop selections early := by
  rw [Bool.eq_iff_iff]
  simp only [isRevealed, List.any_eq_true, h]

/-- A selection touches a stretch if it reaches into it, or to its edge where the caret style says
so. -/
theorem touches_iff (s : Int × Int) (stretch : Stretch) :
    touches stretch.start stretch.stop (revealsEarly caretStyle) (orderEnds s.1 s.2) = true ↔
      Reaches caretStyle s stretch := by
  simp only [touches, orderEnds_eq, Reaches, Bool.and_eq_true, decide_eq_true_eq, revealsEarly_iff,
    ge_iff_le, ite_not]
  exact and_comm

/-- Where only some more matches are revealed, those are decorated less, and nothing else
changes. -/
theorem decorates_filter {ends : List (Int × Int)} (hidden : Placement → Bool)
    (hrevealed : ∀ m ∈ x.found v,
      isRevealed m.start m.stop (ascending ends) (revealsEarly caretStyle) =
        (isRevealed m.start m.stop (ascending v.ends) (revealsEarly v.caretStyle) ||
          hidden (placementOf (x.sight v) m)))
    (h : x.decorates v = .ok ps) :
    x.decorates ⟨v.document, ends, v.scopes, caretStyle⟩ = .ok (ps.filter fun p => !hidden p) := by
  have hdecided : x.decided ⟨v.document, ends, v.scopes, caretStyle⟩ = decisions (x.sight v) []
      ((x.found v).filter fun m => !hidden (placementOf (x.sight v) m)) :=
    decisions_of_revealed (v := x.sight v) hrevealed []
  unfold decorates at h ⊢
  split at h
  · cases h
  next hok =>
    cases h
    have hdecisions : failure? (decisions (x.sight v) [] (x.found v)) = none := hok
    obtain ⟨hfewer, hplacements⟩ := placements_filter hidden hdecisions
    rw [hdecided, hfewer, hplacements]
    rfl

/-- Selections given in another way decide the same. -/
theorem decided_of_regiven {ends : List (Int × Int)} (h : Regiven v.ends ends) :
    x.decided ⟨v.document, ends, v.scopes, v.caretStyle⟩ = x.decided v := by
  have hrevealed : ∀ m ∈ x.found v,
      isRevealed m.start m.stop (ascending ends) (revealsEarly v.caretStyle) =
        (isRevealed m.start m.stop (ascending v.ends) (revealsEarly v.caretStyle) || false) := by
    intro m _
    rw [Bool.or_false]
    exact isRevealed_of_mem_iff h.mem_ascending_iff m.start m.stop _
  have hsame : x.decided ⟨v.document, ends, v.scopes, v.caretStyle⟩ = decisions (x.sight v) []
      ((x.found v).filter fun _ => !false) :=
    decisions_of_revealed (v := x.sight v) hrevealed []
  rw [hsame, List.filter_eq_self.mpr (by simp)]
  rfl

/-- One selection more leaves out exactly the matches that it reaches. -/
theorem decorates_cons (s : Int × Int) (h : x.decorates v = .ok ps) :
    x.decorates ⟨v.document, s :: v.ends, v.scopes, v.caretStyle⟩ =
      .ok (ps.filter fun p => ¬ Reaches v.caretStyle s p.stretch) := by
  let hidden (p : Placement) : Bool := decide (Reaches v.caretStyle s p.stretch)
  have hcons : x.decorates ⟨v.document, s :: v.ends, v.scopes, v.caretStyle⟩ =
      .ok (ps.filter fun p => !hidden p) := by
    refine decorates_filter hidden (fun m _ => ?_) h
    have htouches : touches m.start m.stop (revealsEarly v.caretStyle) (orderEnds s.1 s.2) =
        hidden (placementOf (x.sight v) m) := by
      rw [Bool.eq_iff_iff, decide_eq_true_eq]
      exact touches_iff s (placementOf (x.sight v) m).stretch
    rw [← htouches, Bool.or_comm]
    rfl
  simpa [hidden] using hcons

/-- A caret that is no line reveals the matches besides before which a selection ends. -/
theorem decorates_early (hline : "line".toList <+: v.caretStyle.toList)
    (hearly : ¬ "line".toList <+: caretStyle.toList) (h : x.decorates v = .ok ps) :
    x.decorates ⟨v.document, v.ends, v.scopes, caretStyle⟩ =
      .ok (ps.filter fun p => ∀ s ∈ v.ends, max s.1 s.2 ≠ p.stretch.start - 1) := by
  let hidden (p : Placement) : Bool := decide (∃ s ∈ v.ends, max s.1 s.2 = p.stretch.start - 1)
  have hnone : x.decorates ⟨v.document, v.ends, v.scopes, caretStyle⟩ =
      .ok (ps.filter fun p => !hidden p) := by
    refine decorates_filter hidden (fun m hm => ?_) h
    -- a match has a character at least, so a selection that ends before it begins there or earlier
    have hlong := ((x.pattern.finds_matchesIn _).inside (Nat.zero_le _) hm).1
    have hlate : revealsEarly v.caretStyle = false := by
      rw [← Bool.not_eq_true, revealsEarly_iff, not_not]
      exact hline
    have hstart : (placementOf (x.sight v) m).stretch.start = m.start := rfl
    rw [(revealsEarly_iff caretStyle).mpr hearly, hlate, Bool.eq_iff_iff, Bool.or_eq_true]
    simp only [hidden, isRevealed, ascending, List.any_map, List.any_eq_true, Function.comp_apply,
      touches, orderEnds_eq, Bool.and_eq_true, decide_eq_true_eq, hstart, if_true,
      Bool.false_eq_true, if_false]
    constructor
    · rintro ⟨s, hs, hstop, hbegin⟩
      by_cases hends : max s.1 s.2 = m.start - 1
      · exact Or.inr ⟨s, hs, hends⟩
      · exact Or.inl ⟨s, hs, by omega, hbegin⟩
    · rintro (⟨s, hs, hstop, hbegin⟩ | ⟨s, hs, hends⟩)
      · exact ⟨s, hs, by omega, hbegin⟩
      · exact ⟨s, hs, by omega, by omega⟩
  refine hnone.trans (congrArg Except.ok (List.filter_congr fun p _ => ?_))
  rw [Bool.eq_iff_iff]
  simp [hidden]

/-- The stretches of placements by their keys, those of the pattern's key last. -/
def bundles (base : String) (ps : List Placement) : List (String × List Stretch) :=
  (collect base ps [(base, [])]).drop 1 ++ (collect base ps [(base, [])]).take 1

/-- Decorations were created, then the keys of some placements were given exactly their stretches,
and at last decorations were removed. -/
def Gives (host base : String) (ps : List Placement) (m m' : Masking) : Prop :=
  ∃ (created : List Call) (handle : String → Nat) (gone : List Nat),
    (∀ c ∈ created, ∃ handle look, c = .create handle look) ∧
    (∀ d ∈ bundles base ps, m'.decorations.handle? d.1 = some (handle d.1)) ∧
    m'.decorations.desk.calls =
      ((created ++ (bundles base ps).map (fun d => Call.set (handle d.1) d.2) ++
        gone.flatMap Decorations.removal).map (host, ·)).reverse ++ m.decorations.desk.calls

/-- An application that returns decorates the matches that its entry decorates. -/
theorem decorates_of_apply {m m' : Masking} {host : String} {n : Nat}
    (h : m.decorations.Stands host) (hscene : m.scene? v.caretStyle = .ok (some v))
    (hok : Masking.apply x.pattern x.mask v.caretStyle m = .ok n m') :
    ∃ ps, x.decorates v = .ok ps ∧ n = ps.length ∧
      (m.decorations.desk.names host = true → Gives host x.base ps m m') := by
  have hdocument : (m.decorations.desk.document? host).isSome := by
    have heditor : m.editor? = some host := h.host
    simp only [Masking.scene?, heditor] at hscene
    cases hdocument : m.decorations.desk.document? host with
    | none => simp [hdocument] at hscene
    | some document => rfl
  obtain ⟨v', used, created, given, gone, hscene', rfl, hran⟩ := ran_apply h hdocument hok
  rw [hscene] at hscene'
  cases hscene'
  have hplan : bundles x.base (placements (x.decided v)) = x.plan v (x.masked v) :=
    collected_eq_plan hran.decided
  refine ⟨placements (x.decided v), by simp only [decorates, hran.decided], ?_, fun hnames => ?_⟩
  · rw [(placements_of_failure? x hran.decided).2, List.length_map]
  · obtain ⟨handle, hhandle, rfl⟩ := hran.given hnames
    have hcalls := hran.obliged.desk.calls
    rw [← hplan] at hhandle hcalls
    exact ⟨created, handle, gone, hran.creates, hhandle, hcalls⟩

/-- How the matches that an entry decorates depend on selections and carets. Selections given in
another way make no difference. One selection more leaves out exactly the matches that it reaches. A
caret that is no line leaves out exactly those that a selection ends before. An application answers
with the number of these matches, and gives their stretches to a host that names its handles. -/
theorem decorates_for_selections (x : Entry) (v : Scene) :
    (∀ ends, Regiven v.ends ends →
      x.decided ⟨v.document, ends, v.scopes, v.caretStyle⟩ = x.decided v) ∧
    (∀ ps, x.decorates v = .ok ps →
      (∀ s, x.decorates ⟨v.document, s :: v.ends, v.scopes, v.caretStyle⟩ =
        .ok (ps.filter fun p => ¬ Reaches v.caretStyle s p.stretch)) ∧
      ("line".toList <+: v.caretStyle.toList → ∀ caretStyle : String,
        ¬ "line".toList <+: caretStyle.toList →
        x.decorates ⟨v.document, v.ends, v.scopes, caretStyle⟩ =
          .ok (ps.filter fun p => ∀ s ∈ v.ends, max s.1 s.2 ≠ p.stretch.start - 1))) ∧
    ∀ (m m' : Masking) (host : String) (n : Nat), m.decorations.Stands host →
      m.scene? v.caretStyle = .ok (some v) →
      Masking.apply x.pattern x.mask v.caretStyle m = .ok n m' →
      ∃ ps, x.decorates v = .ok ps ∧ n = ps.length ∧
        (m.decorations.desk.names host = true → Gives host x.base ps m m') :=
  ⟨fun _ h => decided_of_regiven h,
    fun _ h => ⟨fun s => decorates_cons s h, fun hline _ hearly => decorates_early hline hearly h⟩,
    fun _ _ _ _ hstands hscene hok => decorates_of_apply hstands hscene hok⟩

/-- A selection behind the first letter reveals it, and the other one if the caret is no line. -/
theorem letters_decorated : ∃ ps qs,
    letters.decorates ⟨{ text := "a b" }, [(1, 1)], plain.scopes, "line"⟩ = .ok ps ∧
    ps.map Placement.stretch = [⟨2, 3, none⟩] ∧
    letters.decorates ⟨{ text := "a b" }, [(1, 1)], plain.scopes, "block"⟩ = .ok qs ∧
    qs.map Placement.stretch = [] := by
  let v : Scene := ⟨{ text := "a b" }, [], plain.scopes, "line"⟩
  have hdecided : failure? (letters.decided v) = none := by decide +kernel
  have hall : letters.decorates v = .ok (placements (letters.decided v)) := by
    simp only [decorates, hdecided]
  have hone := ((decorates_for_selections letters v).2.1 _ hall).1 (1, 1)
  have hnone := ((decorates_for_selections letters { v with ends := [(1, 1)] }).2.1 _ hone).2
    (by decide) "block" (by decide)
  exact ⟨_, _, hone, by decide +kernel, hnone, by decide +kernel⟩

end Entry

end Conceal
