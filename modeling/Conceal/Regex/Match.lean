import Conceal.Regex.Node

/-!
Matching by ordered choice: the first way to match, in the order that the pattern gives, is the
match. Main statements: `Node.run_bounds`, a match never moves backwards nor beyond the text, and
`search?_inside`, a search from `pos` finds `pos ≤ start ≤ stop ≤ length`, with all groups in the
text, or nothing.
-/

namespace Conceal

namespace Regex

/-- Where a group begins and ends, each known from the moment it is passed. -/
structure Marks where
  start : Option Nat := none
  stop : Option Nat := none
deriving DecidableEq, Repr, Inhabited

/-- The stretch between two marks, once both are known and in order. -/
def Marks.span? : Marks → Option (Nat × Nat)
  | ⟨some a, some b⟩ => if a ≤ b then some (a, b) else none
  | _ => none

/-- How far a match has come: its place in the text and the marks of the groups. -/
structure Progress where
  pos : Nat
  marks : Array Marks
deriving DecidableEq, Repr

/-- The stretch that a group has matched. -/
def Progress.span? (s : Progress) (index : Nat) : Option (Nat × Nat) :=
  match s.marks[index]? with
  | some m => m.span?
  | none => none

/-- Notes where a group begins. -/
def Progress.openGroup (s : Progress) (index : Nat) : Progress :=
  { s with marks := s.marks.modify index fun m => { m with start := some s.pos } }

/-- Notes where a group ends. -/
def Progress.closeGroup (s : Progress) (index : Nat) : Progress :=
  { s with marks := s.marks.modify index fun m => { m with stop := some s.pos } }

/-- What remains to be matched: a function that gives the final progress, if there is one. -/
abbrev Rest := Progress → Option Progress

/-- The body of a loop: matches once, then goes on with the rest. -/
abbrev Step := Progress → Rest → Option Progress

/-- Is another repetition allowed? -/
def below (max : Option Nat) : Bool :=
  match max with
  | some 0 => false
  | _ => true

/-- One repetition less. -/
def spend (max : Option Nat) : Option Nat := max.map (· - 1)

/-- Repeats as often as possible before going on. Beyond `min`, a repetition starts only where the
one before it did not start, so that one that takes up nothing ends the loop. -/
def runGreedy (step : Step) :
    Nat → Nat → Option Nat → Option Nat → Progress → Rest → Option Progress
  | 0, _, _, _, _, _ => none
  | fuel + 1, min, max, last, s, rest =>
    match min with
    | m + 1 => step s fun t => runGreedy step fuel m (spend max) last t rest
    | 0 =>
      if below max && last != some s.pos then
        (step s fun t => runGreedy step fuel 0 (spend max) (some s.pos) t rest) <|> rest s
      else rest s

/-- Goes on as soon as possible, and repeats only when that fails. -/
def runLazy (step : Step) : Nat → Nat → Option Nat → Option Nat → Progress → Rest → Option Progress
  | 0, _, _, _, _, _ => none
  | fuel + 1, min, max, last, s, rest =>
    match min with
    | m + 1 => step s fun t => runLazy step fuel m (spend max) last t rest
    | 0 =>
      rest s <|>
        if below max && last != some s.pos then
          step s fun t => runLazy step fuel 0 (spend max) (some s.pos) t rest
        else none

/-- Repeats as often as possible, each time in the first way only. -/
def runPossessive (step : Step) : Nat → Nat → Option Nat → Option Nat → Rest
  | 0, _, _, _, _ => none
  | fuel + 1, min, max, last, s =>
    match min with
    | m + 1 =>
      match step s some with
      | some t => runPossessive step fuel m (spend max) last t
      | none => none
    | 0 =>
      if below max && last != some s.pos then
        match step s some with
        | some t => runPossessive step fuel 0 (spend max) (some s.pos) t
        | none => some s
      else some s

/-- Is there a word character at a place? -/
def wordAt (text : Array Char) (ascii : Bool) (pos : Nat) : Bool :=
  match text[pos]? with
  | some c => CharClass.word.holds ascii c.toNat
  | none => false

/-- Do exactly one of the two neighbours of a place hold a word character? -/
def atBoundary (text : Array Char) (ascii : Bool) (pos : Nat) : Bool :=
  (pos != 0 && wordAt text ascii (pos - 1)) != wordAt text ascii pos

/-- Does an anchor hold at a place? In an empty text neither kind of word boundary does. -/
def Anchor.holds (text : Array Char) (pos : Nat) : Anchor → Bool
  | .textStart => pos == 0
  | .textEnd => pos == text.size
  | .textEndOrFinalLineFeed => pos == text.size || (pos + 1 == text.size && text[pos]? == some '\n')
  | .lineStart => pos == 0 || text[pos - 1]? == some '\n'
  | .lineEnd => pos == text.size || text[pos]? == some '\n'
  | .wordBoundary ascii => text.size != 0 && atBoundary text ascii pos
  | .notWordBoundary ascii => text.size != 0 && !atBoundary text ascii pos

/-- Do the `length` characters from `a` on repeat at `b`? -/
def repeatsAt (text : Array Char) (reading : Reading) : Nat → Nat → Nat → Bool
  | 0, _, _ => true
  | length + 1, a, b =>
    match text[a]?, text[b]? with
    | some x, some y =>
      (if reading.ignoreCase then reading.lower x.toNat == reading.lower y.toNat else x == y)
        && repeatsAt text reading length (a + 1) (b + 1)
    | _, _ => false

/-- Matches a pattern from a place on, then the rest. -/
def Node.run (text : Array Char) : Node → Progress → Rest → Option Progress
  | .empty, s, rest => rest s
  | .one test reading, s, rest =>
    match text[s.pos]? with
    | some c => if test.passes reading c.toNat then rest { s with pos := s.pos + 1 } else none
    | none => none
  | .seq first second, s, rest => first.run text s fun t => second.run text t rest
  | .alt first second, s, rest => first.run text s rest <|> second.run text s rest
  | .group index body, s, rest =>
    body.run text (s.openGroup index) fun t => rest (t.closeGroup index)
  | .backReference index reading, s, rest =>
    match s.span? index with
    | some (a, b) =>
      if repeatsAt text reading (b - a) a s.pos then rest { s with pos := s.pos + (b - a) }
      else none
    | none => none
  | .anchor a, s, rest => if a.holds text s.pos then rest s else none
  | .look behind negated body, s, rest =>
    let width := behind.getD 0
    if negated then
      if s.pos < width then rest s
      else
        match body.run text { s with pos := s.pos - width } some with
        | some _ => none
        | none => rest s
    else if s.pos < width then none
    else
      match body.run text { s with pos := s.pos - width } some with
      | some t => rest { t with pos := s.pos }
      | none => none
  | .atomic body, s, rest =>
    match body.run text s some with
    | some t => rest t
    | none => none
  | .ifGroup index yes no, s, rest =>
    if (s.span? index).isSome then yes.run text s rest else no.run text s rest
  | .loop greed min max body, s, rest =>
    let step : Step := fun t k => body.run text t k
    let fuel := min + (text.size - s.pos) + 3
    match greed with
    | .greedy => runGreedy step fuel min max none s rest
    | .lazy => runLazy step fuel min max none s rest
    | .possessive =>
      match runPossessive step fuel min max none s with
      | some t => rest t
      | none => none

/-- The stretch of a match and the stretches of its groups; entry 0 of `groups` is not used. -/
structure Found where
  start : Nat
  stop : Nat
  groups : Array (Option (Nat × Nat))
deriving DecidableEq, Repr

end Regex

/-- A pattern ready to be searched for, with the number of its capturing groups. -/
structure Regex where
  node : Regex.Node
  groupCount : Nat
deriving Repr

namespace Regex

/-- Matches from exactly one place on. -/
def matchAt? (r : Regex) (text : Array Char) (pos : Nat) : Option Found :=
  (r.node.run text ⟨pos, Array.replicate (r.groupCount + 1) default⟩ some).map fun t =>
    ⟨pos, t.pos, t.marks.map Marks.span?⟩

/-- The first of the `tries` places from `pos` on at which the pattern matches. -/
def searchFrom (r : Regex) (text : Array Char) : Nat → Nat → Option Found
  | 0, _ => none
  | tries + 1, pos => r.matchAt? text pos <|> searchFrom r text tries (pos + 1)

/-- The first match that starts at or after `pos`. The text before `pos` is seen by what looks
back. -/
def search? (r : Regex) (text : Array Char) (pos : Nat) : Option Found :=
  r.searchFrom text (text.size + 1 - pos) pos

/-- The stretch of a group: the whole match for 0, `none` for a group that took no part. -/
def Found.span? (m : Found) (group : Nat) : Option (Nat × Nat) :=
  if group = 0 then some (m.start, m.stop) else (m.groups[group]?).join

/-- The text of a stretch. -/
def slice (text : Array Char) (start stop : Nat) : String :=
  String.ofList (text.extract start stop).toList

/-! ## Bounds -/

/-- Is a match still in the text, with every group that has ended? -/
structure Progress.Inside (size : Nat) (s : Progress) : Prop where
  pos : s.pos ≤ size
  marks : ∀ (i : Nat) (m : Marks), s.marks[i]? = some m → ∀ b, m.stop = some b → b ≤ size

theorem Progress.Inside.move {size pos : Nat} {s : Progress} (h : s.Inside size)
    (hpos : pos ≤ size) : ({ s with pos } : Progress).Inside size :=
  ⟨hpos, h.marks⟩

/-- Opening a group leaves all ends inside of the text. -/
theorem Progress.Inside.openGroup {size : Nat} {s : Progress} (h : s.Inside size) (index : Nat) :
    (s.openGroup index).Inside size := by
  refine ⟨h.pos, fun i m hm b hb => ?_⟩
  simp only [Progress.openGroup, Array.getElem?_modify] at hm
  split at hm
  · obtain ⟨n, hn, rfl⟩ := Option.map_eq_some_iff.mp hm
    exact h.marks i n hn b hb
  · exact h.marks i m hm b hb

/-- A group that is closed ends inside of the text. -/
theorem Progress.Inside.closeGroup {size : Nat} {s : Progress} (h : s.Inside size) (index : Nat) :
    (s.closeGroup index).Inside size := by
  refine ⟨h.pos, fun i m hm b hb => ?_⟩
  simp only [Progress.closeGroup, Array.getElem?_modify] at hm
  split at hm
  · obtain ⟨n, hn, rfl⟩ := Option.map_eq_some_iff.mp hm
    cases hb
    exact h.pos
  · exact h.marks i m hm b hb

/-- What a step of a match may do with the rest: run it on a place further on, still in the text. -/
def Reaches (size : Nat) (s : Progress) (rest : Rest) (u : Progress) : Prop :=
  ∃ t : Progress, s.pos ≤ t.pos ∧ t.Inside size ∧ rest t = some u

/-- A step that only moves forward and stays in the text. -/
def Step.Forward (size : Nat) (step : Step) : Prop :=
  ∀ s rest u, s.Inside size → step s rest = some u → Reaches size s rest u

theorem firstOf_eq_some {α : Type} {a b : Option α} {u : α} (h : (a <|> b) = some u) :
    a = some u ∨ b = some u := by
  cases a with
  | none => exact Or.inr h
  | some x => exact Or.inl h

/-- A match that comes to an end through a place in between comes to it from the start. -/
theorem Reaches.trans {size : Nat} {s : Progress} {rest middle : Rest} {u : Progress}
    (h : Reaches size s middle u)
    (next : ∀ t, s.pos ≤ t.pos → t.Inside size → middle t = some u → Reaches size t rest u) :
    Reaches size s rest u := by
  obtain ⟨t, hst, htn, ht⟩ := h
  obtain ⟨v, htv, hvn, hv⟩ := next t hst htn ht
  exact ⟨v, Nat.le_trans hst htv, hvn, hv⟩

/-- Repeating a step that goes forward, as often as possible, goes forward. -/
theorem runGreedy_reaches {size : Nat} {step : Step} (forward : step.Forward size) (fuel : Nat) :
    ∀ min max last s rest u, s.Inside size → runGreedy step fuel min max last s rest = some u →
      Reaches size s rest u := by
  induction fuel with
  | zero => intro min max last s rest u _ h; simp [runGreedy] at h
  | succ fuel ih =>
    intro min max last s rest u hs h
    cases min with
    | succ m => exact (forward s _ u hs h).trans fun t _ ht hr => ih _ _ _ t rest u ht hr
    | zero =>
      simp only [runGreedy] at h
      split at h
      · rcases firstOf_eq_some h with h | h
        · exact (forward s _ u hs h).trans fun t _ ht hr => ih _ _ _ t rest u ht hr
        · exact ⟨s, Nat.le_refl _, hs, h⟩
      · exact ⟨s, Nat.le_refl _, hs, h⟩

/-- Repeating a step that goes forward, as seldom as possible, goes forward. -/
theorem runLazy_reaches {size : Nat} {step : Step} (forward : step.Forward size) (fuel : Nat) :
    ∀ min max last s rest u, s.Inside size → runLazy step fuel min max last s rest = some u →
      Reaches size s rest u := by
  induction fuel with
  | zero => intro min max last s rest u _ h; simp [runLazy] at h
  | succ fuel ih =>
    intro min max last s rest u hs h
    cases min with
    | succ m => exact (forward s _ u hs h).trans fun t _ ht hr => ih _ _ _ t rest u ht hr
    | zero =>
      simp only [runLazy] at h
      rcases firstOf_eq_some h with h | h
      · exact ⟨s, Nat.le_refl _, hs, h⟩
      · split at h
        · exact (forward s _ u hs h).trans fun t _ ht hr => ih _ _ _ t rest u ht hr
        · simp at h

/-- Repeating a step without going back ends behind its start and inside of the text. -/
theorem runPossessive_bounds {size : Nat} {step : Step} (forward : step.Forward size)
    (fuel : Nat) : ∀ min max last s u, s.Inside size →
      runPossessive step fuel min max last s = some u → s.pos ≤ u.pos ∧ u.Inside size := by
  induction fuel with
  | zero => intro min max last s u _ h; simp [runPossessive] at h
  | succ fuel ih =>
    intro min max last s u hs h
    have once : ∀ t, step s some = some t → s.pos ≤ t.pos ∧ t.Inside size := by
      intro t ht
      obtain ⟨v, h1, h2, h3⟩ := forward s some t hs ht
      cases h3
      exact ⟨h1, h2⟩
    cases min with
    | succ m =>
      simp only [runPossessive] at h
      split at h
      next t ht =>
        obtain ⟨hst, htn⟩ := once t ht
        obtain ⟨htu, hun⟩ := ih _ _ _ t u htn h
        exact ⟨Nat.le_trans hst htu, hun⟩
      · simp at h
    | zero =>
      simp only [runPossessive] at h
      split at h
      · split at h
        next t ht =>
          obtain ⟨hst, htn⟩ := once t ht
          obtain ⟨htu, hun⟩ := ih _ _ _ t u htn h
          exact ⟨Nat.le_trans hst htu, hun⟩
        · cases h; exact ⟨Nat.le_refl _, hs⟩
      · cases h; exact ⟨Nat.le_refl _, hs⟩

/-- A group that is met once more fits into the text. -/
theorem repeatsAt_bound {text : Array Char} {reading : Reading} (length : Nat) :
    ∀ a b, repeatsAt text reading length a b = true → length = 0 ∨ b + length ≤ text.size := by
  induction length with
  | zero => intro a b _; exact Or.inl rfl
  | succ length ih =>
    intro a b h
    simp only [repeatsAt] at h
    split at h
    next x y _ hy =>
      obtain ⟨hb, _⟩ := Array.getElem?_eq_some_iff.mp hy
      simp only [Bool.and_eq_true] at h
      rcases ih _ _ h.2 with h | h <;> omega
    · simp at h

/-- Matching a pattern runs the rest on a place at or after the first one, still in the text. -/
theorem Node.run_bounds (text : Array Char) (node : Node) :
    Step.Forward text.size fun s rest => node.run text s rest := by
  induction node with
  | empty => intro s rest u hs h; exact ⟨s, Nat.le_refl _, hs, h⟩
  | one test reading =>
    intro s rest u hs h
    simp only [Node.run] at h
    split at h
    next c hc =>
      obtain ⟨hlt, _⟩ := Array.getElem?_eq_some_iff.mp hc
      split at h
      · exact ⟨{ s with pos := s.pos + 1 }, Nat.le_succ _, hs.move hlt, h⟩
      · simp at h
    · simp at h
  | seq first second ihf ihs =>
    intro s rest u hs h
    exact (ihf s _ u hs h).trans fun t _ ht hr => ihs t rest u ht hr
  | alt first second ihf ihs =>
    intro s rest u hs h
    simp only [Node.run] at h
    rcases firstOf_eq_some h with h | h
    · exact ihf s rest u hs h
    · exact ihs s rest u hs h
  | group index body ih =>
    intro s rest u hs h
    obtain ⟨t, h1, h2, h3⟩ := ih (s.openGroup index) _ u (hs.openGroup index) h
    exact ⟨t.closeGroup index, h1, h2.closeGroup index, h3⟩
  | backReference index reading =>
    intro s rest u hs h
    simp only [Node.run] at h
    split at h
    next a b _ =>
      split at h
      next hr =>
        refine ⟨_, Nat.le_add_right _ _, hs.move ?_, h⟩
        rcases repeatsAt_bound _ _ _ hr with h0 | h0
        · simp only [h0]; exact hs.pos
        · exact h0
      · simp at h
    · simp at h
  | anchor a =>
    intro s rest u hs h
    simp only [Node.run] at h
    split at h
    · exact ⟨s, Nat.le_refl _, hs, h⟩
    · simp at h
  | look behind negated body ih =>
    intro s rest u hs h
    simp only [Node.run] at h
    split at h
    · split at h
      · exact ⟨s, Nat.le_refl _, hs, h⟩
      · split at h
        · simp at h
        · exact ⟨s, Nat.le_refl _, hs, h⟩
    · split at h
      · simp at h
      · split at h
        next t ht =>
          -- the groups of the body are kept, only the place is taken back
          have hback := Nat.le_trans (Nat.sub_le s.pos (behind.getD 0)) hs.pos
          obtain ⟨v, _, h2, h3⟩ := ih _ some t (hs.move hback) ht
          cases h3
          exact ⟨{ t with pos := s.pos }, Nat.le_refl _, h2.move hs.pos, h⟩
        · simp at h
  | atomic body ih =>
    intro s rest u hs h
    simp only [Node.run] at h
    split at h
    next t ht =>
      obtain ⟨v, h1, h2, h3⟩ := ih s some t hs ht
      cases h3
      exact ⟨t, h1, h2, h⟩
    · simp at h
  | ifGroup index yes no ihy ihn =>
    intro s rest u hs h
    simp only [Node.run] at h
    split at h
    · exact ihy s rest u hs h
    · exact ihn s rest u hs h
  | loop greed min max body ih =>
    intro s rest u hs h
    simp only [Node.run] at h
    split at h
    · exact runGreedy_reaches ih _ _ _ _ s rest u hs h
    · exact runLazy_reaches ih _ _ _ _ s rest u hs h
    · split at h
      next t ht =>
        have := runPossessive_bounds ih _ _ _ _ s t hs ht
        exact ⟨t, this.1, this.2, h⟩
      · simp at h

/-- A match right at `pos`, with every group that took part, lies in the text. -/
structure Found.Inside (size pos : Nat) (m : Found) : Prop where
  start : pos ≤ m.start
  ordered : m.start ≤ m.stop
  stop : m.stop ≤ size
  groups : ∀ group a b, m.span? group = some (a, b) → b ≤ size

theorem Marks.stop_of_span? {m : Marks} {a b : Nat} (h : m.span? = some (a, b)) :
    m.stop = some b := by
  unfold Marks.span? at h
  split at h
  · split at h <;> simp_all
  · simp at h

/-- What is found at a position starts there and lies in the text, with all its groups. -/
theorem matchAt?_inside {r : Regex} {text : Array Char} {pos : Nat} {m : Found}
    (hpos : pos ≤ text.size) (h : r.matchAt? text pos = some m) :
    m.start = pos ∧ m.Inside text.size pos := by
  obtain ⟨t, ht, rfl⟩ := Option.map_eq_some_iff.mp h
  have hstart : (⟨pos, Array.replicate (r.groupCount + 1) default⟩ : Progress).Inside text.size := by
    refine ⟨hpos, fun i n hn b hb => ?_⟩
    simp only [Array.getElem?_replicate] at hn
    split at hn
    · cases hn; cases hb
    · simp at hn
  obtain ⟨v, h1, h2, h3⟩ := Node.run_bounds text r.node _ _ t hstart ht
  cases h3
  refine ⟨rfl, Nat.le_refl _, h1, h2.pos, fun group a b hspan => ?_⟩
  unfold Found.span? at hspan
  split at hspan
  · cases hspan; exact h2.pos
  · simp only [Array.getElem?_map] at hspan
    cases hm : t.marks[group]? with
    | none => simp [hm] at hspan
    | some n =>
      simp only [hm, Option.map_some, Option.join_some] at hspan
      exact h2.marks group n hm b (Marks.stop_of_span? hspan)

/-- What is found from a position on starts there or later and lies in the text. -/
theorem searchFrom_inside {r : Regex} {text : Array Char} (tries : Nat) :
    ∀ {pos : Nat} {m : Found}, pos + tries = text.size + 1 → r.searchFrom text tries pos = some m →
      m.Inside text.size pos := by
  induction tries with
  | zero => intro pos m _ h; simp [searchFrom] at h
  | succ tries ih =>
    intro pos m hsum h
    simp only [searchFrom] at h
    rcases firstOf_eq_some h with h | h
    · exact (matchAt?_inside (by omega) h).2
    · have later := ih (by omega) h
      exact { later with start := Nat.le_of_succ_le later.start }

/-- A search from `pos` finds nothing, or a stretch of the text at or after `pos`. -/
theorem search?_inside {r : Regex} {text : Array Char} {pos : Nat} {m : Found}
    (hpos : pos ≤ text.size) (h : r.search? text pos = some m) : m.Inside text.size pos :=
  searchFrom_inside _ (by omega) h

end Regex

end Conceal
