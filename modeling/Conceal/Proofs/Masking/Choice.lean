import Conceal.Proofs.Document.Lines
import Conceal.Proofs.Masking.Drawing

/-!
Which matches are masked. A match is masked when no selection touches it and the scope that is asked
for, if any, is among those of the token at its first character. Whatever is asked about a line is
answered by the scopes of the document; that the answers are kept from one match to the next shows
nowhere. Main statements: `finds_matchesIn`, `placements_decided`, `failure?_decided`.
-/

namespace Conceal

/-! ## Matches -/

namespace Pattern

/-- The matches in a text from a place on, each searched for from the end of the one before, up to
the first empty one. -/
inductive Finds (p : Pattern) (text : Array Char) : Nat → List Regex.Found → Prop
  | nothing {pos : Nat} (hsearch : p.regex.search? text pos = none) : Finds p text pos []
  | empty {pos : Nat} {m : Regex.Found} (hsearch : p.regex.search? text pos = some m)
      (hempty : m.start = m.stop) : Finds p text pos []
  | next {pos : Nat} {m : Regex.Found} {rest : List Regex.Found}
      (hsearch : p.regex.search? text pos = some m) (hlong : m.start < m.stop)
      (hrest : Finds p text m.stop rest) : Finds p text pos (m :: rest)

variable {p : Pattern} {text : Array Char} {pos : Nat}

/-- With enough fuel the search comes to the end of the text. -/
theorem finds_matchesFrom {fuel : Nat} (hpos : pos ≤ text.size) (hfuel : text.size < pos + fuel) :
    p.Finds text pos (p.matchesFrom text fuel pos) := by
  induction fuel generalizing pos with
  | zero => omega
  | succ fuel ih =>
    unfold matchesFrom
    cases hsearch : p.regex.search? text pos with
    | none => exact .nothing hsearch
    | some m =>
      -- every match that is not empty brings the search on by a character or more
      obtain ⟨hstart, hordered, hstop, -⟩ := Regex.search?_inside hpos hsearch
      dsimp only
      split
      next hempty => exact .empty hsearch hempty
      next hlong => exact .next hsearch (by omega) (ih hstop (by omega))

/-- The matches in a text are found from its start. -/
theorem finds_matchesIn (p : Pattern) (text : Array Char) :
    p.Finds text 0 (p.matchesIn text) :=
  finds_matchesFrom (Nat.zero_le _) (by omega)

/-- The matches are not empty and lie in the text. -/
theorem Finds.inside {found : List Regex.Found} (h : p.Finds text pos found)
    (hpos : pos ≤ text.size) {m : Regex.Found} (hm : m ∈ found) :
    m.start < m.stop ∧ m.stop ≤ text.size := by
  induction h with
  | nothing => cases hm
  | empty => cases hm
  | next hsearch hlong _ ih =>
    have hinside := Regex.search?_inside hpos hsearch
    rcases List.mem_cons.mp hm with rfl | hm
    · exact ⟨hlong, hinside.stop⟩
    · exact ih hinside.stop hm

end Pattern

/-! ## Scopes -/

/-- Is a scope a filter, or does it go on behind one with a dot? -/
def Scope.Falls (scope filter : String) : Prop :=
  scope = filter ∨ filter.toList ++ ['.'] <+: scope.toList

instance (scope filter : String) : Decidable (Scope.Falls scope filter) := by
  unfold Scope.Falls
  infer_instance

/-- A scope lies within a filter if it is the filter or goes on with a point. -/
theorem Scope.within_iff {scope filter : String} (hfilter : filter ≠ "") :
    Scope.within scope filter = true ↔ Scope.Falls scope filter := by
  have hnil : filter.toList.isEmpty = false := by simpa using hfilter
  have heq : scope = filter ↔ scope.toList = filter.toList := String.toList_inj.symm
  simp only [within, withinChars, hnil, Bool.not_false, Bool.true_and, Bool.and_eq_true,
    List.isPrefixOf_iff_prefix, Falls, heq]
  constructor
  · rintro ⟨⟨rest, hrest⟩, hdrop⟩
    rw [← hrest, List.drop_left] at hdrop
    cases rest with
    | nil => exact Or.inl (by simpa using hrest.symm)
    | cons c rest =>
      obtain rfl : c = '.' := by simpa using hdrop
      exact Or.inr ⟨rest, by simpa using hrest⟩
  · rintro (heq | ⟨rest, hrest⟩)
    · simp [heq]
    · have hsplit : scope.toList = filter.toList ++ '.' :: rest := by simpa using hrest.symm
      simp [hsplit]

/-! ## What is asked of a match -/

namespace Scene

variable (v : Scene) (m : Regex.Found)

/-- The text of a match. -/
def textOf : String := Regex.slice v.document.text.toList.toArray m.start m.stop

/-- Does a selection reach a match, or the place before it where the caret is no line? -/
def Touches : Prop :=
  ∃ s ∈ v.ends, min s.1 s.2 ≤ m.stop ∧
    (if "line".toList <+: v.caretStyle.toList then (m.start : Int) else m.start - 1) ≤ max s.1 s.2

/-- The tokens that the scopes of the document have for the line of a match. -/
def lineTokens? : Option (List Token) :=
  (v.scopes.tokens? (v.document.lineAt m.start)).toOption.bind Prod.fst

/-- Is the token at the first character of a match, the first that covers it, within a filter? -/
def InScope (filter : String) : Prop :=
  ∃ tokens ∈ v.lineTokens? m, ∃ token ∈ tokens.find? fun t =>
      t.start ≤ v.document.characterAt m.start ∧ v.document.characterAt m.start < t.stop,
    ∃ scope ∈ token.scopes, Scope.Falls scope filter

instance : Decidable (v.Touches m) := by
  unfold Touches
  infer_instance

instance (filter : String) : Decidable (v.InScope m filter) := by
  unfold InScope
  infer_instance

end Scene

namespace Entry

open Masking

variable (x : Entry) (v : Scene) (m : Regex.Found)

/-- The replacement of a match's own text. -/
def own? : Option Override := x.mask.override? (v.textOf m)

/-- Is a scope asked for at a match? An empty one is as none. -/
def AsksFor (filter : String) : Prop :=
  filter ≠ "" ∧ ((x.own? v m).bind Override.scope = some filter ∨
    (∀ given, (x.own? v m).bind Override.scope = some given → given = "") ∧
      x.mask.scope = some filter)

/-- Is a match masked? -/
def Masks : Prop := ¬ v.Touches m ∧ ∀ filter, x.AsksFor v m filter → v.InScope m filter

/-- Are the tokens of a match's line asked for, and is the answer a fault? -/
def FailsAt (fault : Fault) : Prop :=
  ¬ v.Touches m ∧ (∃ filter, x.AsksFor v m filter) ∧
    v.scopes.tokens? (v.document.lineAt m.start) = .error fault

end Entry

/-! ## Decisions without memory -/

namespace Masking

/-- How a match is masked, if it is. -/
def placementOf (v : Sight) (m : Regex.Found) : Placement :=
  let text := Regex.slice v.text m.start m.stop
  let own := v.mask.override? text
  ⟨own.map fun o => (text, o), m.start, m.stop, match own with
    | some o => o.hover
    | none => v.mask.hover⟩

/-- Is a match masked, going by what its line is said to have? -/
def verdict (v : Sight) (m : Regex.Found) : Except Fault Bool :=
  if isRevealed m.start m.stop v.selections v.early then .ok false
  else
    match filter? v.mask (v.mask.override? (Regex.slice v.text m.start m.stop)) with
    | none => .ok true
    | some scope =>
      let (line, character) := v.document.positionAt m.start
      (v.scopes.tokens? line).map fun (tokens, _) => holdsAt tokens character scope

/-- The tokens that are known are those that the scopes have. -/
def Known (v : Sight) (seen : List (Nat × Option (List Token))) : Prop :=
  ∀ line tokens, seen.lookup line = some tokens →
    ∃ notice, v.scopes.tokens? line = .ok (tokens, notice)

variable {v : Sight} {seen : List (Nat × Option (List Token))}

/-- What was just asked for may be added to what is known. -/
theorem Known.cons (h : Known v seen) {line : Nat} {tokens : Option (List Token)}
    {notice : Option Notice} (hasked : v.scopes.tokens? line = .ok (tokens, notice)) :
    Known v ((line, tokens) :: seen) := by
  intro n known hlookup
  rw [List.lookup_cons] at hlookup
  by_cases hn : n = line
  · subst hn
    simp only [beq_self_eq_true] at hlookup
    obtain rfl := Option.some.inj hlookup
    exact ⟨notice, hasked⟩
  · rw [beq_eq_false_iff_ne.mpr hn] at hlookup
    exact h n known hlookup

/-- The decision about one match is its verdict; known tokens change nothing. -/
theorem decisions_cons (hseen : Known v seen) (m : Regex.Found) (rest : List Regex.Found) :
    ∃ seen' notices, Known v seen' ∧ decisions v seen (m :: rest) = match verdict v m with
      | .error fault => [.fail fault]
      | .ok masked => List.map Decision.notice notices ++
          ((if masked then [.place (placementOf v m)] else []) ++ decisions v seen' rest) := by
  by_cases hrevealed : isRevealed m.start m.stop v.selections v.early = true
  · refine ⟨seen, [], hseen, ?_⟩
    simp only [decisions, verdict, if_pos hrevealed]
    rfl
  simp only [decisions, verdict, if_neg hrevealed]
  cases filter? v.mask (v.mask.override? (Regex.slice v.text m.start m.stop)) with
  | none => exact ⟨seen, [], hseen, rfl⟩
  | some scope =>
    simp only
    cases hlookup : seen.lookup (v.document.positionAt m.start).1 with
    | some tokens =>
      -- the line has come up before
      obtain ⟨notice, hasked⟩ := hseen _ _ hlookup
      refine ⟨seen, [], hseen, ?_⟩
      simp only [hasked, Except.map]
      split <;> rfl
    | none =>
      cases hasked : v.scopes.tokens? (v.document.positionAt m.start).1 with
      | error fault => exact ⟨seen, [], hseen, rfl⟩
      | ok answer =>
        obtain ⟨tokens, notice⟩ := answer
        refine ⟨_, notice.toList, hseen.cons hasked, ?_⟩
        simp only [Except.map]
        split <;> rfl

/-- Notices are no failures. -/
theorem failure?_append_notices (notices : List Notice) (ds : List Decision) :
    failure? (notices.map .notice ++ ds) = failure? ds := by
  induction notices with
  | nil => rfl
  | cons n rest ih => exact ih

/-- The failure is that of the first match whose verdict is one. -/
theorem failure?_decisions (hseen : Known v seen) (found : List Regex.Found) :
    failure? (decisions v seen found) = found.findSome? fun m =>
      match verdict v m with
      | .error fault => some fault
      | .ok _ => none := by
  induction found generalizing seen with
  | nil => rfl
  | cons m rest ih =>
    obtain ⟨seen', notices, hseen', hdecisions⟩ := decisions_cons hseen m rest
    rw [hdecisions, List.findSome?_cons]
    cases verdict v m with
    | error fault => rfl
    | ok masked =>
      dsimp only
      rw [failure?_append_notices, ← ih hseen']
      cases masked <;> rfl

/-- Where no verdict is a fault, the matches with a good one are masked. -/
theorem placements_decisions (hseen : Known v seen) {found : List Regex.Found}
    (hok : ∀ m ∈ found, ∀ fault, verdict v m ≠ .error fault) :
    placements (decisions v seen found) =
      (found.filter fun m => (verdict v m).toOption = some true).map (placementOf v) := by
  induction found generalizing seen with
  | nil => rfl
  | cons m rest ih =>
    obtain ⟨seen', notices, hseen', hdecisions⟩ := decisions_cons hseen m rest
    have hrest := ih hseen' fun m' hm' => hok m' (List.mem_cons_of_mem m hm')
    have hm := hok m List.mem_cons_self
    rw [hdecisions, List.filter_cons]
    cases hverdict : verdict v m with
    | error fault => exact absurd hverdict (hm fault)
    | ok masked =>
      dsimp only
      rw [placements_append_notices]
      cases masked with
      | false => simpa [Except.toOption] using hrest
      | true => simpa [Except.toOption, placements] using hrest

end Masking

/-! ## Verdicts are as asked -/

namespace Entry

open Masking

/-- What an entry meets in a scene. -/
abbrev sight (x : Entry) (v : Scene) : Sight where
  document := v.document
  text := v.document.text.toList.toArray
  selections := v.ends.map fun (anchor, active) => orderEnds anchor active
  early := revealsEarly v.caretStyle
  scopes := v.scopes
  mask := x.mask

variable {x : Entry} {v : Scene} {m : Regex.Found}

/-- The ends of a selection are put in order. -/
theorem orderEnds_eq (anchor active : Int) :
    orderEnds anchor active = (min anchor active, max anchor active) := by
  unfold orderEnds
  split <;> rw [Prod.mk.injEq] <;> omega

/-- All caret styles reveal early but those that begin with "line". -/
theorem revealsEarly_iff (style : String) :
    revealsEarly style = true ↔ ¬ "line".toList <+: style.toList := by
  rw [revealsEarly, Text.beginsWith, Bool.not_eq_true', ← Bool.not_eq_true,
    List.isPrefixOf_iff_prefix]

/-- A match is revealed exactly if a selection touches it. -/
theorem isRevealed_iff :
    isRevealed m.start m.stop (x.sight v).selections (x.sight v).early = true ↔ v.Touches m := by
  simp only [isRevealed, List.any_map, List.any_eq_true, Function.comp_def, touches, orderEnds_eq,
    Bool.and_eq_true, decide_eq_true_eq, Scene.Touches, revealsEarly_iff, ge_iff_le, ite_not]
  exact exists_congr fun s => and_congr_right fun _ => and_comm

/-- The scope that is asked for is that of the replacement of its own, or else that of the mask. -/
theorem filter?_eq_some_iff {filter : String} :
    filter? x.mask (x.own? v m) = some filter ↔ x.AsksFor v m filter := by
  have hown : ∀ given : Option String, given.filter (· != "") = some filter ↔
      filter ≠ "" ∧ given = some filter := by
    intro given
    simp [Option.filter_eq_some_iff, and_comm]
  have hnone : ∀ given : Option String, given.filter (· != "") = none ↔
      ∀ scope, given = some scope → scope = "" := by
    intro given
    simp [Option.filter_eq_none_iff]
  have horElse : ∀ first second : Option String, (first <|> second) = some filter ↔
      first = some filter ∨ first = none ∧ second = some filter := by
    intro first second
    cases first <;> simp
  rw [filter?, horElse, hown, hown, hnone, AsksFor]
  tauto

instance : Decidable (x.Masks v m) :=
  decidable_of_iff
    (¬ v.Touches m ∧ ∀ filter ∈ filter? x.mask (x.own? v m), v.InScope m filter) <| by
    simp only [Option.mem_def, filter?_eq_some_iff, Masks]

/-- The tokens of a line answer whether a place in it is in scope. -/
theorem holdsAt_iff {tokens : Option (List Token)} {notice : Option Notice} {filter : String}
    (hfilter : filter ≠ "")
    (hasked : v.scopes.tokens? (v.document.lineAt m.start) = .ok (tokens, notice)) :
    holdsAt tokens (v.document.characterAt m.start) filter = true ↔ v.InScope m filter := by
  have hline : v.lineTokens? m = tokens := by
    rw [Scene.lineTokens?, hasked]
    rfl
  cases tokens with
  | none => simp [holdsAt, Scene.InScope, hline]
  | some tokens =>
    simp [holdsAt, Scene.InScope, hline, Token.covering?, Token.within, Option.any_eq_true,
      Scope.within_iff hfilter]

variable (x)

/-- What the verdict on a match comes from, for one that no selection touches. -/
theorem verdict_of_not_touches (hinside : m.start ≤ v.document.length) (h : ¬ v.Touches m) :
    verdict (x.sight v) m = match filter? x.mask (x.own? v m) with
      | none => .ok true
      | some filter => (v.scopes.tokens? (v.document.lineAt m.start)).map fun (tokens, _) =>
          holdsAt tokens (v.document.characterAt m.start) filter := by
  have hrevealed := mt (isRevealed_iff (x := x)).mp h
  unfold verdict
  rw [if_neg hrevealed, v.document.positionAt_eq hinside]
  rfl

/-- A match that is touched is not masked, whatever its scopes are. -/
theorem verdict_of_touches (h : v.Touches m) : verdict (x.sight v) m = .ok false := by
  unfold verdict
  rw [if_pos (isRevealed_iff.mpr h)]

/-- A verdict fails only for a match that is not touched and has to be asked about. -/
theorem verdict_eq_error_iff (hinside : m.start ≤ v.document.length) {fault : Fault} :
    verdict (x.sight v) m = .error fault ↔ x.FailsAt v m fault := by
  by_cases htouches : v.Touches m
  · rw [verdict_of_touches x htouches]
    simp [FailsAt, htouches]
  rw [verdict_of_not_touches x hinside htouches]
  cases hfilter : filter? x.mask (x.own? v m) with
  | none =>
    have hasks : ∀ filter, ¬ x.AsksFor v m filter := by
      intro filter h
      rw [← filter?_eq_some_iff, hfilter] at h
      cases h
    simp [FailsAt, hasks]
  | some filter =>
    have hasks : x.AsksFor v m filter := filter?_eq_some_iff.mp hfilter
    have hexists : ∃ filter, x.AsksFor v m filter := ⟨filter, hasks⟩
    cases hasked : v.scopes.tokens? (v.document.lineAt m.start) <;>
      simp [FailsAt, htouches, hexists, hasked, Except.map]

/-- A match is masked if nothing touches it and the scope that is asked for is there. -/
theorem verdict_eq_ok_true_iff (hinside : m.start ≤ v.document.length) :
    verdict (x.sight v) m = .ok true ↔ x.Masks v m := by
  by_cases htouches : v.Touches m
  · rw [verdict_of_touches x htouches]
    simp [Masks, htouches]
  rw [verdict_of_not_touches x hinside htouches]
  cases hfilter : filter? x.mask (x.own? v m) with
  | none =>
    have hasks : ∀ filter, ¬ x.AsksFor v m filter := by
      intro filter h
      rw [← filter?_eq_some_iff, hfilter] at h
      cases h
    simp [Masks, htouches, hasks]
  | some filter =>
    have hasks : ∀ other, x.AsksFor v m other ↔ other = filter := by
      intro other
      rw [← filter?_eq_some_iff, hfilter, Option.some.injEq, eq_comm]
    have hne : filter ≠ "" := ((hasks filter).mpr rfl).1
    simp only [Masks, htouches, not_false_eq_true, true_and, hasks, forall_eq]
    cases hasked : v.scopes.tokens? (v.document.lineAt m.start) with
    | error fault => simp [Except.map, Scene.InScope, Scene.lineTokens?, hasked, Except.toOption]
    | ok answer =>
      rw [← holdsAt_iff hne hasked]
      simp [Except.map]

/-! ## What is decided about an entry -/

/-- The matches of an entry. -/
def found (x : Entry) (v : Scene) : List Regex.Found :=
  x.pattern.matchesIn v.document.text.toList.toArray

/-- The matches of an entry that are masked. -/
def masked (x : Entry) (v : Scene) : List Regex.Found := (x.found v).filter fun m => x.Masks v m

theorem start_le_of_mem_found (hm : m ∈ x.found v) : m.start ≤ v.document.length := by
  have hinside := (x.pattern.finds_matchesIn _).inside (Nat.zero_le _) hm
  have hsize : v.document.text.toList.toArray.size = v.document.length := by
    rw [List.size_toArray, Document.length]
  omega

theorem known_nil : Known (x.sight v) [] := fun _ _ h => by cases h

/-- An entry fails at the first match that fails. -/
theorem failsAt_of_failure? {fault : Fault} (h : failure? (x.decided v) = some fault) :
    ∃ before m rest, x.found v = before ++ m :: rest ∧ x.FailsAt v m fault ∧
      ∀ m' ∈ before, ∀ fault', ¬ x.FailsAt v m' fault' := by
  have hfound : (x.found v).findSome? _ = some fault :=
    (failure?_decisions (known_nil x) _).symm.trans h
  obtain ⟨before, m, rest, heq, hm, hbefore⟩ := List.findSome?_eq_some_iff.mp hfound
  have hstart : ∀ m' ∈ x.found v, m'.start ≤ v.document.length := fun m' => start_le_of_mem_found x
  rw [heq] at hstart
  refine ⟨before, m, rest, heq, ?_, ?_⟩
  · rw [← verdict_eq_error_iff x (hstart m (by simp))]
    split at hm
    next hverdict => rw [hverdict, Option.some.inj hm]
    · cases hm
  · intro m' hm' fault' hfails
    rw [← verdict_eq_error_iff x (hstart m' (by simp [hm']))] at hfails
    have := hbefore m' hm'
    rw [hfails] at this
    cases this

/-- Where no match fails, those are masked that are to be masked. -/
theorem placements_of_failure? (h : failure? (x.decided v) = none) :
    (∀ m ∈ x.found v, ∀ fault, ¬ x.FailsAt v m fault) ∧
      placements (x.decided v) = (x.masked v).map (placementOf (x.sight v)) := by
  have hfound : (x.found v).findSome? _ = none :=
    (failure?_decisions (known_nil x) _).symm.trans h
  rw [List.findSome?_eq_none_iff] at hfound
  have hok : ∀ m ∈ x.found v, ∀ fault, verdict (x.sight v) m ≠ .error fault := by
    intro m hm fault hverdict
    have := hfound m hm
    rw [hverdict] at this
    cases this
  refine ⟨fun m hm fault hfails => ?_, ?_⟩
  · exact hok m hm fault ((verdict_eq_error_iff x (start_le_of_mem_found x hm)).mpr hfails)
  · have hplacements := placements_decisions (known_nil x) hok
    rw [show x.decided v = decisions (x.sight v) [] (x.found v) from rfl, hplacements]
    refine congrArg _ (List.filter_congr fun m hm => ?_)
    have hmasks := verdict_eq_ok_true_iff x (start_le_of_mem_found x hm)
    rw [decide_eq_decide, ← hmasks]
    cases verdict (x.sight v) m <;> simp [Except.toOption]

end Entry

end Conceal
