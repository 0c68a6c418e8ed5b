import Conceal.Grammar.Tokenize
import Mathlib.Algebra.Order.Group.Nat
import Mathlib.Order.MinMax
import Mathlib.Tactic.Set

/-!
Tokens and the line that they come from. A step of the scan adds tokens that lie one after the other
from the place that the scan has come to, but a named group of a look-ahead can carry them beyond
the end of its match, where the scan goes on. The tokens of a line lie side by side over the whole
line exactly when that happens to none of the matches taken.
-/

namespace Conceal

/-- Tokens that lie one after the other, none of them empty, from `a` to `b`. -/
def Token.Tile : Nat → List Token → Nat → Prop
  | a, [], b => a = b
  | a, t :: rest, b => t.start = a ∧ a < t.stop ∧ Token.Tile t.stop rest b

instance Token.decidableTile : ∀ a tokens b, Decidable (Token.Tile a tokens b)
  | a, [], b => inferInstanceAs (Decidable (a = b))
  | a, t :: rest, b =>
    have := Token.decidableTile t.stop rest b
    inferInstanceAs (Decidable (t.start = a ∧ a < t.stop ∧ Token.Tile t.stop rest b))

namespace Token

/-- Tokens that tile a stretch do so up to some place and from there on. -/
theorem tile_append_iff {xs ys : List Token} {a c : Nat} :
    Tile a (xs ++ ys) c ↔ ∃ b, Tile a xs b ∧ Tile b ys c := by
  induction xs generalizing a with
  | nil => simp [Tile]
  | cons t rest ih =>
    simp only [List.cons_append, Tile, ih]
    constructor
    · rintro ⟨h1, h2, b, h3, h4⟩
      exact ⟨b, ⟨h1, h2, h3⟩, h4⟩
    · rintro ⟨b, ⟨h1, h2, h3⟩, h4⟩
      exact ⟨h1, h2, b, h3, h4⟩

theorem Tile.append {xs ys : List Token} {a b c : Nat} (h : Tile a xs b) (h' : Tile b ys c) :
    Tile a (xs ++ ys) c :=
  tile_append_iff.mpr ⟨b, h, h'⟩

/-- Tokens can end at one place only. -/
theorem Tile.unique {xs : List Token} {a b b' : Nat} (h : Tile a xs b) (h' : Tile a xs b') :
    b = b' := by
  induction xs generalizing a with
  | nil => exact h.symm.trans h'
  | cons t rest ih => exact ih h.2.2 h'.2.2

/-- Tiles lead forward. -/
theorem Tile.le {xs : List Token} {a b : Nat} (h : Tile a xs b) : a ≤ b := by
  induction xs generalizing a with
  | nil => exact le_of_eq h
  | cons t rest ih => exact le_trans (le_of_lt h.2.1) (ih h.2.2)

/-- An empty stretch has no tiles. -/
theorem Tile.eq_nil {xs : List Token} {a b : Nat} (h : Tile a xs b) (hba : b ≤ a) : xs = [] := by
  cases xs with
  | nil => rfl
  | cons t rest => exact absurd (le_trans h.2.2.le hba) (Nat.not_le.mpr h.2.1)

/-- The first of the tokens begins at `a`; where there are none, the text ends there. -/
def Begin (a size : Nat) : List Token → Prop
  | [] => a = size
  | t :: _ => t.start = a

/-- Tokens that tile a stretch begin to. -/
theorem Tile.begin {xs : List Token} {a b : Nat} (h : Tile a xs b) : Begin a b xs := by
  cases xs with
  | nil => exact h
  | cons t rest => exact h.1

/-- Tokens can begin at one place only. -/
theorem Tile.begin_unique {xs : List Token} {a a' b : Nat} (h : Tile a xs b)
    (h' : Begin a' b xs) : a = a' := by
  cases xs with
  | nil => exact Eq.trans h (Eq.symm h')
  | cons t rest => exact h.1.symm.trans h'

end Token

namespace Grammar

open Token (Tile Begin tile_append_iff)

/-! ## What the emitters add -/

/-- The token of a stretch, unless the stretch is empty. -/
def stretch (start stop : Nat) (scopes : List String) : List Token :=
  if stop > start then [⟨start, stop, scopes⟩] else []

/-- A token is added at the end, if it is not empty. -/
theorem toList_emit (tokens : Array Token) (start stop : Nat) (scopes : List String) :
    (emit tokens start stop scopes).toList = tokens.toList ++ stretch start stop scopes := by
  unfold emit stretch
  split <;> simp

/-- A stretch is one tile, or none. -/
theorem tile_stretch {start stop : Nat} (h : start ≤ stop) (scopes : List String) :
    Tile start (stretch start stop scopes) stop := by
  unfold stretch
  split
  · next hlt => exact ⟨rfl, hlt, rfl⟩
  · next hle => exact le_antisymm h (Nat.not_lt.mp hle)

private theorem stretch_eq_nil {start stop : Nat} (h : stop ≤ start) (scopes : List String) :
    stretch start stop scopes = [] :=
  if_neg (Nat.not_lt.mpr h)

/-- The groups that get a token of their own: each begins where the one before it ended, or later.
-/
def chosenSpans : List (Nat × Nat × String) → Nat → List (Nat × Nat × String)
  | [], _ => []
  | (a, b, name) :: rest, cursor =>
    if a < cursor then chosenSpans rest cursor else (a, b, name) :: chosenSpans rest b

/-- Only spans that are there are chosen. -/
theorem mem_of_mem_chosenSpans {s : Nat × Nat × String} {spans : List (Nat × Nat × String)}
    {cursor : Nat} (h : s ∈ chosenSpans spans cursor) : s ∈ spans := by
  induction spans generalizing cursor with
  | nil => exact h
  | cons t rest ih =>
    simp only [chosenSpans] at h
    split at h
    · exact List.mem_cons_of_mem _ (ih h)
    · rcases List.mem_cons.mp h with rfl | h
      · exact List.mem_cons_self
      · exact List.mem_cons_of_mem _ (ih h)

/-- The tokens of groups lie side by side up to the end of the last group chosen. -/
theorem emitSpans_tile (scopes : List String) {spans : List (Nat × Nat × String)}
    (hspans : ∀ s ∈ spans, s.1 < s.2.1) (cursor : Nat) (tokens : Array Token) :
    ∃ new, (emitSpans scopes spans cursor tokens).2.toList = tokens.toList ++ new ∧
      Tile cursor new (emitSpans scopes spans cursor tokens).1 := by
  induction spans generalizing cursor tokens with
  | nil => exact ⟨[], by simp [emitSpans], rfl⟩
  | cons s rest ih =>
    obtain ⟨a, b, name⟩ := s
    have hrest : ∀ s ∈ rest, s.1 < s.2.1 := fun s hs => hspans s (List.mem_cons_of_mem _ hs)
    have hab : a < b := hspans (a, b, name) List.mem_cons_self
    simp only [emitSpans]
    split
    · exact ih hrest cursor tokens
    · next hle =>
      obtain ⟨new, hnew, htile⟩ :=
        ih hrest b (emit (emit tokens cursor a scopes) a b (scopes ++ [name]))
      refine ⟨stretch cursor a scopes ++ (stretch a b (scopes ++ [name]) ++ new), ?_, ?_⟩
      · rw [hnew, toList_emit, toList_emit]
        simp only [List.append_assoc]
      · have hgap := tile_stretch (Nat.not_lt.mp hle) scopes
        have hown := tile_stretch (le_of_lt hab) (scopes ++ [name])
        exact hgap.append (hown.append htile)

/-- No group chosen ends behind the place where the tokens of the groups end, and if that is not the
cursor then a group ends there. -/
theorem emitSpans_fst (scopes : List String) {spans : List (Nat × Nat × String)}
    (hspans : ∀ s ∈ spans, s.1 < s.2.1) (cursor : Nat) (tokens : Array Token) :
    (∀ s ∈ chosenSpans spans cursor, s.2.1 ≤ (emitSpans scopes spans cursor tokens).1) ∧
      ((emitSpans scopes spans cursor tokens).1 = cursor ∨
        ∃ s ∈ chosenSpans spans cursor, s.2.1 = (emitSpans scopes spans cursor tokens).1) := by
  induction spans generalizing cursor tokens with
  | nil => exact ⟨by simp [chosenSpans], Or.inl rfl⟩
  | cons s rest ih =>
    obtain ⟨a, b, name⟩ := s
    have hrest : ∀ s ∈ rest, s.1 < s.2.1 := fun s hs => hspans s (List.mem_cons_of_mem _ hs)
    simp only [emitSpans, chosenSpans]
    split
    · exact ih hrest cursor tokens
    · obtain ⟨hle, hend⟩ := ih hrest b (emit (emit tokens cursor a scopes) a b (scopes ++ [name]))
      obtain ⟨_, _, htile⟩ :=
        emitSpans_tile scopes hrest b (emit (emit tokens cursor a scopes) a b (scopes ++ [name]))
      constructor
      · intro s hs
        rcases List.mem_cons.mp hs with rfl | hs
        · exact htile.le
        · exact hle s hs
      · right
        rcases hend with hend | ⟨s, hs, hend⟩
        · exact ⟨(a, b, name), List.mem_cons_self, hend.symm⟩
        · exact ⟨s, List.mem_cons_of_mem _ hs, hend⟩

/-- The stretches of named groups are not empty, and lie in the text if the match does. -/
theorem groupSpans_bounds {m : Regex.Found} {size pos groupCount : Nat} (hm : m.Inside size pos)
    {captures : Captures} {spans : List (Nat × Nat × String)}
    (h : groupSpans m groupCount captures = .ok spans) :
    ∀ s ∈ spans, s.1 < s.2.1 ∧ s.2.1 ≤ size := by
  induction captures generalizing spans with
  | nil => simp only [groupSpans, Except.ok.injEq] at h; subst h; simp
  | cons c rest ih =>
    obtain ⟨group, name⟩ := c
    simp only [groupSpans] at h
    split at h
    · exact ih h
    · split at h
      · cases h
      · obtain ⟨later, hlater, h⟩ := bind_eq_ok.mp h
        split at h
        next a b hspan =>
          split at h
          · cases h; exact ih hlater
          next hlt =>
            cases h
            intro s hs
            rcases List.mem_cons.mp hs with rfl | hs
            · exact ⟨Nat.not_le.mp hlt, hm.groups _ _ _ hspan⟩
            · exact ih hlater s hs
        · cases h; exact ih hlater

/-! ## Matches that reach beyond their end -/

/-- Does a named group with a token of its own end behind the end of its match? -/
def Choice.overhangs (c : Choice) : Bool :=
  match groupSpans c.found c.groupCount c.captures with
  | .ok spans => (chosenSpans (spans.mergeSort spanLe) c.found.start).any (c.found.stop < ·.2.1)
  | .error _ => false

/-- The tokens of a match lie side by side from its start on, up to its end or beyond it. -/
theorem emitMatch_tile {c : Choice} {size pos : Nat} (hm : c.found.Inside size pos)
    {tokens tokens' : Array Token} {scopes : List String}
    (h : emitMatch tokens c.found c.groupCount scopes c.captures = .ok tokens') :
    ∃ new stop, tokens'.toList = tokens.toList ++ new ∧ Tile c.found.start new stop ∧
      c.found.stop ≤ stop ∧ stop ≤ size ∧ (stop = c.found.stop ↔ c.overhangs = false) := by
  obtain ⟨spans, hspans, h⟩ := bind_eq_ok.mp h
  have hbounds : ∀ s ∈ spans.mergeSort spanLe, s.1 < s.2.1 ∧ s.2.1 ≤ size := fun s hs =>
    groupSpans_bounds hm hspans s (List.mem_mergeSort.mp hs)
  replace h := Except.ok.inj h
  set whole := scopes ++ wholeName c.captures
  set sorted := spans.mergeSort spanLe with hsorted
  obtain ⟨new, hnew, htile⟩ :=
    emitSpans_tile whole (fun s hs => (hbounds s hs).1) c.found.start tokens
  obtain ⟨hle, hend⟩ :=
    emitSpans_fst whole (fun s hs => (hbounds s hs).1) c.found.start tokens
  -- the tokens of the groups end at the cursor; what is left of the match follows, if anything is
  set cursor := (emitSpans whole sorted c.found.start tokens).1
  have hsize : cursor ≤ size := by
    rcases hend with hend | ⟨s, hs, hend⟩
    · rw [hend]; exact le_trans hm.ordered hm.stop
    · rw [← hend]; exact (hbounds s (mem_of_mem_chosenSpans hs)).2
  have hover : c.overhangs = true ↔ c.found.stop < cursor := by
    have : c.overhangs = (chosenSpans sorted c.found.start).any (c.found.stop < ·.2.1) := by
      simp only [Choice.overhangs, hspans, hsorted]
    rw [this, List.any_eq_true]
    constructor
    · rintro ⟨s, hs, hlt⟩
      exact lt_of_lt_of_le (of_decide_eq_true hlt) (hle s hs)
    · intro hlt
      rcases hend with hend | ⟨s, hs, hend⟩
      · exact absurd hm.ordered (Nat.not_le.mpr (hend ▸ hlt))
      · exact ⟨s, hs, decide_eq_true (hend ▸ hlt)⟩
  refine ⟨new ++ stretch cursor c.found.stop whole, max cursor c.found.stop, ?_, ?_,
    le_max_right _ _, max_le hsize hm.stop, ?_⟩
  · rw [← h, toList_emit, hnew, List.append_assoc]
  · rcases le_total cursor c.found.stop with hcs | hcs
    · rw [max_eq_right hcs]
      exact htile.append (tile_stretch hcs whole)
    · rw [max_eq_left hcs, stretch_eq_nil hcs, List.append_nil]
      exact htile
  · rw [← Bool.not_eq_true, hover, Nat.not_lt]
    exact max_eq_right_iff

/-! ## Steps of a scan -/

/-- A match that can come next inside a block: one of the pattern that ends it, or one of a rule. -/
inductive Offers (g : Grammar) (text : Array Char) (pos : Nat) (frame : Frame) : Choice → Prop
  | ending {source : String} {rule : Rule} {pattern : Regex} {m : Regex.Found}
      (hsource : frame.endSource = some source) (hrule : g.rules[frame.rule]? = some rule)
      (hpattern : endPattern g source = .ok pattern) (hfound : pattern.search? text pos = some m) :
      Offers g text pos frame ⟨.ending, rule, m, pattern.groupCount⟩
  | rule {id : Nat} {rule : Rule} {pattern : Regex} {m : Regex.Found}
      (hrule : g.rules[id]? = some rule) (hpattern : rule.pattern? = some pattern)
      (hfound : pattern.search? text pos = some m) :
      Offers g text pos frame ⟨.rule, rule, m, pattern.groupCount⟩

theorem offers_of_firstCandidate {g : Grammar} {text : Array Char} {pos : Nat} {frame : Frame}
    {ids : List Nat} {best : Option Choice} {c : Choice}
    (hbest : ∀ b ∈ best, Offers g text pos frame b)
    (h : firstCandidate g text pos ids best = some c) : Offers g text pos frame c := by
  induction ids generalizing best with
  | nil => exact hbest c h
  | cons id rest ih =>
    simp only [firstCandidate] at h
    split at h
    · exact ih hbest h
    next rule hrule =>
      split at h
      · exact ih hbest h
      next pattern hpattern =>
        split at h
        · exact ih hbest h
        next m hm =>
          have hfound : Offers g text pos frame ⟨.rule, rule, m, pattern.groupCount⟩ :=
            .rule hrule hpattern hm
          split at h
          · split at h
            · cases h; exact hfound
            · exact ih (by rintro b ⟨⟩; exact hfound) h
          · exact ih hbest h

/-- The next match is the end of the block, or one of the rules in it. -/
theorem offers_of_nextMatch {g : Grammar} {text : Array Char} {pos : Nat} {frame : Frame}
    {c : Choice} (h : nextMatch g text pos frame = .ok (some c)) : Offers g text pos frame c := by
  unfold nextMatch at h
  obtain ⟨ending, hend, h⟩ := bind_eq_ok.mp h
  have hending : ∀ b ∈ ending, Offers g text pos frame b := by
    intro b hb
    unfold endChoice? at hend
    split at hend
    next source rule hsource hrule =>
      obtain ⟨pattern, hpattern, hend⟩ := bind_eq_ok.mp hend
      rw [← Except.ok.inj hend, Option.mem_def, Option.map_eq_some_iff] at hb
      obtain ⟨m, hm, rfl⟩ := hb
      exact .ending hsource hrule hpattern hm
    · cases hend; cases hb
  split at h
  next choice =>
    split at h
    · cases h; exact hending _ rfl
    · exact offers_of_firstCandidate hending (Except.ok.inj h)
  · exact offers_of_firstCandidate (by simp) (Except.ok.inj h)

/-- What is offered lies in the text, not before the position. -/
theorem Offers.inside {g : Grammar} {text : Array Char} {pos : Nat} (hpos : pos ≤ text.size)
    {frame : Frame} {c : Choice} (h : Offers g text pos frame c) :
    c.found.Inside text.size pos := by
  cases h with
  | ending _ _ _ hfound => exact Regex.search?_inside hpos hfound
  | rule _ _ hfound => exact Regex.search?_inside hpos hfound

/-- What a scan takes is offered to it. -/
theorem offers_of_move {g : Grammar} {text : Array Char} {scan : Scan} {frame : Frame} {c : Choice}
    (h : scan.move g text frame = .ok (.take c)) : Offers g text scan.pos frame c := by
  unfold Scan.move at h
  obtain ⟨found, hnext, h⟩ := bind_eq_ok.mp h
  cases found with
  | none => cases h
  | some choice =>
    simp only at h
    split at h
    · split at h <;> cases h
    · cases h
      exact offers_of_nextMatch hnext

/-- The match that the next step of a scan takes, if it takes one. -/
def Scan.choice? (g : Grammar) (text : Array Char) (scan : Scan) : Option Choice :=
  match scan.state.top? with
  | none => none
  | some frame =>
    match scan.move g text frame with
    | .ok (.take choice) => some choice
    | _ => none

/-- A scan moves forward, inside of the text. -/
theorem move_bounds {g : Grammar} {text : Array Char} {scan : Scan} {frame : Frame} {move : Move}
    (hpos : scan.pos ≤ text.size) (h : scan.move g text frame = .ok move) :
    match move with
    | .rest => True
    | .skip stop => scan.pos < stop ∧ stop ≤ text.size
    | .take c => c.found.Inside text.size scan.pos := by
  unfold Scan.move at h
  obtain ⟨found, hnext, h⟩ := bind_eq_ok.mp h
  cases found with
  | none => cases h; trivial
  | some c =>
    have hin := (offers_of_nextMatch hnext).inside hpos
    simp only at h
    split at h
    · split at h
      · cases h; trivial
      next hlt => cases h; exact ⟨Nat.lt_succ_of_le hin.start, Nat.not_le.mp hlt⟩
    · cases h; exact hin

/-- The tokens of a match tile the line from where the scan was, and end with the match unless a
group overhangs. -/
theorem take_tile {text : Array Char} {c : Choice} {frame : Frame} {scan next : Scan}
    (hin : c.found.Inside text.size scan.pos) (h : take text c frame scan = .ok next) :
    ∃ new stop, next.tokens.toList = scan.tokens.toList ++ new ∧ Tile scan.pos new stop ∧
      scan.pos ≤ next.pos ∧ next.pos ≤ stop ∧ stop ≤ text.size ∧
      (stop = next.pos ↔ c.overhangs = false) := by
  unfold take at h
  obtain ⟨tokens, hemit, h⟩ := bind_eq_ok.mp h
  obtain ⟨state, _, h⟩ := bind_eq_ok.mp h
  cases h
  obtain ⟨new, stop, hnew, htile, hle, hsize, hover⟩ := emitMatch_tile hin hemit
  rw [toList_emit, List.append_assoc] at hnew
  exact ⟨_, stop, hnew, (tile_stretch hin.start _).append htile,
    le_trans hin.start hin.ordered, hle, hsize, hover⟩

/-- A step adds tokens that lie side by side from the place of the scan on. They end where the scan
goes on, unless the step takes a match that overhangs: then they end behind that place. -/
theorem step_tile {g : Grammar} {text : Array Char} {scan next : Scan}
    (hpos : scan.pos ≤ text.size) (h : scan.step g text = .ok (some next)) :
    ∃ new stop, next.tokens.toList = scan.tokens.toList ++ new ∧ Tile scan.pos new stop ∧
      scan.pos ≤ next.pos ∧ next.pos ≤ stop ∧ stop ≤ text.size ∧
      (stop = next.pos ↔ ∀ c ∈ scan.choice? g text, c.overhangs = false) := by
  unfold Scan.step at h
  unfold Scan.choice?
  cases htop : scan.state.top? with
  | none => rw [htop] at h; cases h
  | some frame =>
    simp only [htop] at h ⊢
    obtain ⟨move, hmove, h⟩ := bind_eq_ok.mp h
    have hbounds := move_bounds hpos hmove
    rw [hmove]
    cases move with
    | rest => cases h
    | skip stop =>
      cases h
      have hle := le_of_lt hbounds.1
      exact ⟨_, stop, toList_emit .., tile_stretch hle _, hle, le_refl _, hbounds.2, by simp⟩
    | take c =>
      obtain ⟨after, htake, h⟩ := bind_eq_ok.mp h
      cases h
      simpa using take_tile hbounds htake

/-! ## The scan of a line -/

/-- The matches that a scan takes, in order. -/
def taken (g : Grammar) (text : Array Char) : Nat → Scan → List Choice
  | 0, _ => []
  | fuel + 1, scan =>
    match scan.step g text with
    | .ok (some next) => (scan.choice? g text).toList ++ taken g text fuel next
    | _ => []

/-- The tokens that a whole scan adds begin where it starts; they lie side by side up to the end of
the text exactly when none of the matches taken overhangs. -/
theorem scanLine_tile {g : Grammar} {text : Array Char} (fuel : Nat) {scan last : Scan}
    (hpos : scan.pos ≤ text.size) (h : scanLine g text fuel scan = .ok last)
    (scopes : List String) :
    ∃ new, last.tokens.toList ++ stretch last.pos text.size scopes = scan.tokens.toList ++ new ∧
      Begin scan.pos text.size new ∧
      (Tile scan.pos new text.size ↔ ∀ c ∈ taken g text fuel scan, c.overhangs = false) := by
  induction fuel generalizing scan with
  | zero =>
    cases h
    have htile := tile_stretch hpos scopes
    exact ⟨_, rfl, htile.begin, by simpa [taken] using htile⟩
  | succ fuel ih =>
    obtain ⟨after, hstep, h⟩ := bind_eq_ok.mp h
    cases after with
    | none =>
      cases h
      have htile := tile_stretch hpos scopes
      exact ⟨_, rfl, htile.begin, by simpa [taken, hstep] using htile⟩
    | some next =>
      obtain ⟨new, stop, hnew, htile, hmono, hle, hsize, hover⟩ := step_tile hpos hstep
      obtain ⟨later, hlater, hbegin, hiff⟩ := ih (le_trans hle hsize) h
      refine ⟨new ++ later, ?_, ?_, ?_⟩
      · rw [hlater, hnew, List.append_assoc]
      · cases new with
        | nil =>
          have hstop : scan.pos = stop := htile
          have : next.pos = scan.pos := le_antisymm (hstop ▸ hle) hmono
          exact this ▸ hbegin
        | cons t rest => exact htile.1
      · have htaken : (∀ c ∈ taken g text (fuel + 1) scan, c.overhangs = false) ↔
            stop = next.pos ∧ Tile next.pos later text.size := by
          rw [hover, hiff]
          simp [taken, hstep, or_imp, forall_and]
        rw [htaken, tile_append_iff]
        constructor
        · rintro ⟨b, hnew', hrest⟩
          obtain rfl := htile.unique hnew'
          -- the rest begins where the scan went on, so that is where the new tokens end
          have hstop := hrest.begin_unique hbegin
          exact ⟨hstop, hstop ▸ hrest⟩
        · rintro ⟨hstop, hrest⟩
          exact ⟨stop, htile, hstop ▸ hrest⟩

/-- What every step keeps, a whole scan keeps. -/
theorem scanLine_induct {g : Grammar} {text : Array Char} {P : Scan → Prop}
    (keeps : ∀ scan next, P scan → scan.step g text = .ok (some next) → P next) (fuel : Nat)
    {scan last : Scan} (hscan : P scan) (h : scanLine g text fuel scan = .ok last) : P last := by
  induction fuel generalizing scan with
  | zero => cases h; exact hscan
  | succ fuel ih =>
    obtain ⟨after, hstep, h⟩ := bind_eq_ok.mp h
    cases after with
    | none => cases h; exact hscan
    | some next => exact ih (keeps scan next hscan hstep) h

/-- A step leaves the open blocks alone, or does with them what the match it takes asks for. -/
theorem step_state {g : Grammar} {text : Array Char} {scan next : Scan}
    (h : scan.step g text = .ok (some next)) :
    next.state = scan.state ∨ ∃ frame c, scan.state.top? = some frame ∧
      scan.move g text frame = .ok (.take c) ∧
      c.stateAfter text frame scan.state = .ok next.state := by
  unfold Scan.step at h
  split at h
  · cases h
  next frame htop =>
    obtain ⟨move, hmove, h⟩ := bind_eq_ok.mp h
    cases move with
    | rest => cases h
    | skip stop => cases h; exact Or.inl rfl
    | take c =>
      obtain ⟨after, htake, h⟩ := bind_eq_ok.mp h
      obtain ⟨tokens, _, htake⟩ := bind_eq_ok.mp htake
      obtain ⟨state, hstate, htake⟩ := bind_eq_ok.mp htake
      cases h
      cases htake
      exact Or.inr ⟨frame, c, htop, hmove, hstate⟩

/-- There is always a frame. -/
theorem frames_pop_ne_nil {s : LineState} (h : s.frames ≠ []) : s.pop.frames ≠ [] := by
  unfold LineState.pop
  split
  · exact h
  next hlen =>
    intro hnil
    have := congrArg List.length hnil
    simp only [List.length_dropLast, List.length_nil] at this
    omega

/-- The outermost block is never closed. -/
theorem frames_ne_nil_of_step {g : Grammar} {text : Array Char} {scan next : Scan}
    (hne : scan.state.frames ≠ []) (h : scan.step g text = .ok (some next)) :
    next.state.frames ≠ [] := by
  rcases step_state h with hsame | ⟨frame, c, _, _, hafter⟩
  · rw [hsame]; exact hne
  · unfold Choice.stateAfter at hafter
    split at hafter
    · rw [← Except.ok.inj hafter]; exact frames_pop_ne_nil hne
    · split at hafter
      · obtain ⟨ending, _, hafter⟩ := bind_eq_ok.mp hafter
        rw [← Except.ok.inj hafter]
        simp [LineState.push]
      · rw [← Except.ok.inj hafter]; exact hne

/-- A line starts in a state with a frame. -/
theorem frames_ne_nil_of_startState {g : Grammar} {previous : Previous} {s : LineState}
    (h : startState g previous = .ok s) : s.frames ≠ [] := by
  unfold startState at h
  split at h
  · cases h; simp [initialState]
  · split at h
    next howns =>
      cases h
      rintro hnil
      simp [owns, hnil] at howns
    · cases h
  · cases h

/-! ## Lines -/

/-- The matches that are taken in a line, in order. -/
def takenIn (g : Grammar) (line : String) (previous : Previous) : List Choice :=
  match startState g previous with
  | .ok state =>
    let text := line.toList.toArray
    taken g text (scanFuel g text.size) (Scan.start state)
  | .error _ => []

/-- An empty text has no tokens. -/
theorem tokens_of_scanLine_empty {g : Grammar} {text : Array Char} (hsize : text.size = 0)
    (fuel : Nat) {state : LineState} {last : Scan}
    (h : scanLine g text fuel (Scan.start state) = .ok last) : last.tokens.toList = [] := by
  refine (scanLine_induct (P := fun s => s.pos ≤ text.size ∧ s.tokens.toList = []) ?_ fuel
    ⟨Nat.zero_le _, rfl⟩ h).2
  rintro scan next ⟨hpos, hnil⟩ hstep
  obtain ⟨new, stop, hnew, htile, _, hle, hstop, _⟩ := step_tile hpos hstep
  have hnone : new = [] := htile.eq_nil (by omega)
  exact ⟨le_trans hle hstop, by rw [hnew, hnil, hnone]; rfl⟩

/-- What tokenizing a line goes through when it succeeds. -/
theorem scan_of_tokenizeLine {g : Grammar} {line : String} {previous : Previous} {r : LineTokens}
    (h : g.tokenizeLine line previous = .ok r) :
    let text := line.toList.toArray
    ∃ state last, startState g previous = .ok state ∧
      scanLine g text (scanFuel g text.size) (Scan.start state) = .ok last ∧
      r = last.finish text.size := by
  obtain ⟨state, hstart, h⟩ := bind_eq_ok.mp h
  obtain ⟨last, hscan, h⟩ := bind_eq_ok.mp h
  exact ⟨state, last, hstart, hscan, (Except.ok.inj h).symm⟩

/-- What is left of a line is one token more. -/
theorem tokens_finish {scan : Scan} {f : Frame} (hf : scan.state.top? = some f) (length : Nat) :
    (scan.finish length).tokens =
      let tokens := scan.tokens.toList ++ stretch scan.pos length f.contentScopes
      if tokens = [] then [⟨0, length, f.contentScopes⟩] else tokens := by
  have hempty : (emit scan.tokens scan.pos length f.contentScopes).isEmpty = true ↔
      scan.tokens.toList ++ stretch scan.pos length f.contentScopes = [] := by
    rw [← toList_emit, Array.toList_eq_nil_iff, Array.isEmpty_iff]
  simp only [Scan.finish, hf, Option.map_some, Option.getD_some]
  by_cases h : scan.tokens.toList ++ stretch scan.pos length f.contentScopes = []
  · rw [if_pos (hempty.mpr h), if_pos h]
  · rw [if_neg (mt hempty.mp h), if_neg h, toList_emit]

/-- The tokens of a line lie side by side over the whole line, or are one empty token with the
scopes of the innermost block where the line is empty, exactly when no match taken in the line has a
named group with a token of its own that ends behind the end of the match. -/
theorem tokens_tile_iff {g : Grammar} {line : String} {previous : Previous} {r : LineTokens}
    (h : g.tokenizeLine line previous = .ok r) :
    ((line ≠ "" → Tile 0 r.tokens line.length) ∧
      (line = "" → ∃ f, r.state.top? = some f ∧ r.tokens = [⟨0, 0, f.contentScopes⟩])) ↔
      ∀ c ∈ g.takenIn line previous, c.overhangs = false := by
  obtain ⟨state, last, hstart, hscan, rfl⟩ := scan_of_tokenizeLine h
  have hlength : line.toList.toArray.size = line.length := by
    rw [List.size_toArray, String.length_toList]
  -- some frame is left in the end, and gives the rest of the line its scopes
  have hframes : last.state.frames ≠ [] :=
    scanLine_induct (fun _ _ => frames_ne_nil_of_step) _ (frames_ne_nil_of_startState hstart) hscan
  obtain ⟨f, hf⟩ : ∃ f, last.state.top? = some f := ⟨_, List.getLast?_eq_some_getLast hframes⟩
  obtain ⟨new, hnew, hbegin, hiff⟩ := scanLine_tile _ (Nat.zero_le _) hscan f.contentScopes
  replace hnew : last.tokens.toList ++ stretch last.pos line.toList.toArray.size f.contentScopes
      = new := hnew
  have htaken : g.takenIn line previous = taken g line.toList.toArray
      (scanFuel g line.toList.toArray.size) (Scan.start state) := by
    simp only [takenIn, hstart]
  rw [tokens_finish hf, htaken, ← hiff, hnew, hlength]
  by_cases hline : line = ""
  · -- an empty line has no tokens but the empty one, and no match to overhang
    subst hline
    have hnil : new = [] := by
      have hnone := tokens_of_scanLine_empty rfl _ hscan
      rw [← hnew, hnone, List.nil_append]
      exact stretch_eq_nil (Nat.zero_le last.pos) f.contentScopes
    subst hnil
    exact iff_of_true ⟨fun hne => absurd rfl hne, fun _ => ⟨f, hf, rfl⟩⟩ rfl
  · have hne : new ≠ [] := by
      rintro rfl
      have hzero : 0 = line.length := hlength ▸ hbegin
      exact hline (String.length_eq_zero_iff.mp hzero.symm)
    rw [if_neg hne]
    exact ⟨fun hall => hall.1 hline, fun htile => ⟨fun _ => htile, fun hnil => absurd hnil hline⟩⟩

/-- Line comments with a mark of their own. -/
def comments : Json :=
  .obj [("scopeName", .str "s"),
    ("patterns", .arr [.obj [("begin", .str "(#)!"), ("end", .str "$"), ("name", .str "c"),
      ("captures", .obj [("1", .obj [("name", .str "m")])])]])]

/-- The tokens of a line with a comment tile it. -/
theorem comment_tokens_tile :
    ∃ g r, ofJson anonymous comments = .ok g ∧ g.tokenizeLine "a #! b" = .ok r ∧
      Tile 0 r.tokens "a #! b".length := by
  have hrun : (do
      let g ← ofJson anonymous comments
      let _ ← g.tokenizeLine "a #! b"
      return (g.takenIn "a #! b" .nothing).map Choice.overhangs).toOption
      = some [false, false] := by
    decide +kernel
  cases hg : ofJson anonymous comments with
  | error f => rw [hg] at hrun; cases hrun
  | ok g =>
    cases hr : g.tokenizeLine "a #! b" with
    | error f => simp [hg, hr, bind, Except.bind, Except.toOption] at hrun
    | ok r =>
      simp only [hg, hr, bind, Except.bind, Except.toOption, pure, Except.pure,
        Option.some.injEq] at hrun
      have hnone : ∀ c ∈ g.takenIn "a #! b" .nothing, c.overhangs = false := by
        intro c hc
        have := List.mem_map_of_mem (f := Choice.overhangs) hc
        rw [hrun] at this
        simpa using this
      exact ⟨g, r, rfl, hr, ((tokens_tile_iff hr).mpr hnone).1 (by decide)⟩

/-- A pattern with a named group in its look-ahead. -/
def peeking : Json :=
  .obj [("scopeName", .str "s"),
    ("patterns", .arr [.obj [("match", .str "a(?=(b))"),
      ("captures", .obj [("1", .obj [("name", .str "x")])])]])]

/-- The group of a look-ahead gets its token, and the text that it looked at gets another one. -/
theorem tokens_overlap_after_lookahead :
    ∃ g r, ofJson anonymous peeking = .ok g ∧ g.tokenizeLine "ab" = .ok r ∧
      r.tokens = [⟨0, 1, ["s"]⟩, ⟨1, 2, ["s", "x"]⟩, ⟨1, 2, ["s"]⟩] ∧
      ¬ Tile 0 r.tokens "ab".length := by
  have hrun : (do
      let g ← ofJson anonymous peeking
      return (← g.tokenizeLine "ab").tokens).toOption
      = some [⟨0, 1, ["s"]⟩, ⟨1, 2, ["s", "x"]⟩, ⟨1, 2, ["s"]⟩] := by
    decide +kernel
  cases hg : ofJson anonymous peeking with
  | error f => rw [hg] at hrun; cases hrun
  | ok g =>
    cases hr : g.tokenizeLine "ab" with
    | error f => simp [hg, hr, bind, Except.bind, Except.toOption] at hrun
    | ok r =>
      simp only [hg, hr, bind, Except.bind, Except.toOption, pure, Except.pure,
        Option.some.injEq] at hrun
      refine ⟨g, r, rfl, hr, hrun, ?_⟩
      rw [hrun]
      decide

end Grammar

end Conceal
