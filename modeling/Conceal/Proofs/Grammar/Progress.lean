import Conceal.Proofs.Grammar.Ownership
import Mathlib.Data.Finset.Prod

/-!
The scan of a line ends. Every step moves the scan forward or makes an empty match that it has not
made before, and there are finitely many of these: a place in the line, what the match means, and a
rule. A block is opened by a match that is not empty or by such a first empty one, which bounds the
blocks that a line can open. Main statement: `scan_ends`.
-/

namespace Conceal

namespace Grammar

/-- What the scan of a line comes to in a number of steps: it is over, or a step fails. Nothing else
bounds the number. -/
inductive Scans (g : Grammar) (text : Array Char) : Nat → Scan → Except Fault Scan → Prop
  | done {scan : Scan} (h : scan.step g text = .ok none) : Scans g text 0 scan (.ok scan)
  | failed {scan : Scan} {fault : Fault} (h : scan.step g text = .error fault) :
      Scans g text 0 scan (.error fault)
  | step {n : Nat} {scan next : Scan} {outcome : Except Fault Scan}
      (h : scan.step g text = .ok (some next)) (hrest : Scans g text n next outcome) :
      Scans g text (n + 1) scan outcome

/-- The rules that open blocks. -/
def blocks (g : Grammar) : List Rule := g.rules.toList.filter fun r => r.beginning.isSome

variable {g : Grammar} {text : Array Char} {scan next : Scan}

/-! ## Empty matches -/

/-- The empty matches that a scan can make in a line, of some rules. -/
def markers (length : Nat) (kinds : Finset MatchKind) (rules : List Rule) :
    Finset (Nat × MatchKind × Nat) :=
  Finset.range (length + 1) ×ˢ kinds ×ˢ (rules.map Rule.id).toFinset

/-- There are only so many markers on a line. -/
private theorem card_markers_le (length : Nat) (kinds : Finset MatchKind) (rules : List Rule) :
    (markers length kinds rules).card ≤ (length + 1) * (kinds.card * rules.length) := by
  have hids : (rules.map Rule.id).toFinset.card ≤ rules.length :=
    (List.toFinset_card_le _).trans (le_of_eq (List.length_map _))
  rw [markers, Finset.card_product, Finset.card_product, Finset.card_range]
  exact Nat.mul_le_mul_left _ (Nat.mul_le_mul_left _ hids)

/-- A marker is a place on the line, a kind and a rule. -/
private theorem mem_markers {length : Nat} {kinds : Finset MatchKind} {rules : List Rule}
    {m : Nat × MatchKind × Nat} : m ∈ markers length kinds rules ↔
      m.1 ≤ length ∧ m.2.1 ∈ kinds ∧ ∃ r ∈ rules, r.id = m.2.2 := by
  simp only [markers, Finset.mem_product, Finset.mem_range, Nat.lt_succ_iff, List.mem_toFinset,
    List.mem_map]

/-- Different empty matches that a scan can make are at most as many as these. -/
private theorem length_le_of_markers {seen : List (Nat × MatchKind × Nat)} (hnodup : seen.Nodup)
    {length : Nat} {kinds : Finset MatchKind} {rules : List Rule}
    (hseen : ∀ m ∈ seen, m ∈ markers length kinds rules) :
    seen.length ≤ (length + 1) * (kinds.card * rules.length) := by
  rw [← List.toFinset_card_of_nodup hnodup]
  refine (Finset.card_le_card fun m hm => ?_).trans (card_markers_le length kinds rules)
  exact hseen m (List.mem_toFinset.mp hm)

/-! ## Steps -/

/-- A scan is in the line, and it has made every empty match only once. -/
structure Scan.Tracked (g : Grammar) (text : Array Char) (scan : Scan) : Prop where
  inside : scan.pos ≤ text.size
  once : scan.emptySeen.Nodup
  seen : ∀ m ∈ scan.emptySeen, m ∈ markers text.size {.ending, .rule} g.rules.toList

/-- How far a scan has come, counting its empty matches. -/
def Scan.progress (scan : Scan) : Nat := scan.pos + scan.emptySeen.length

/-- No scan of a line comes further. -/
def scanLimit (g : Grammar) (length : Nat) : Nat := length + (length + 1) * (2 * g.rules.size)

/-- A scan makes no more progress than there is to make. -/
theorem Scan.Tracked.progress_le (h : scan.Tracked g text) :
    scan.progress ≤ scanLimit g text.size := by
  have hseen := length_le_of_markers h.once h.seen
  have hkinds : ({.ending, .rule} : Finset MatchKind).card = 2 := rfl
  rw [hkinds, Array.length_toList] at hseen
  exact Nat.add_le_add h.inside hseen

/-- An empty match that is taken has not been made before. -/
theorem fresh_of_move {frame : Frame} {c : Choice} (h : scan.move g text frame = .ok (.take c))
    (hempty : c.isEmpty = true) : c.marker ∉ scan.emptySeen := by
  unfold Scan.move at h
  obtain ⟨found, -, h⟩ := bind_eq_ok.mp h
  cases found with
  | none => cases h
  | some choice =>
    simp only at h
    split at h
    · split at h <;> cases h
    next hnew =>
      cases h
      rw [hempty, Bool.true_and, List.contains_iff_mem] at hnew
      exact hnew

/-- What a step does to the place of a scan, its empty matches and its blocks: it moves on past some
content, or takes a match. -/
inductive Moves (g : Grammar) (text : Array Char) (scan : Scan) : Scan → Prop
  | skip {stop : Nat} {tokens : Array Token} (hpos : scan.pos < stop) (hstop : stop ≤ text.size) :
      Moves g text scan { scan with pos := stop, tokens }
  | take {frame : Frame} {c : Choice} {tokens : Array Token} {state : LineState}
      (hin : c.found.Inside text.size scan.pos) (hrule : c.rule ∈ g.rules.toList)
      (hfresh : c.isEmpty = true → c.marker ∉ scan.emptySeen)
      (hstate : c.stateAfter text frame scan.state = .ok state) :
      Moves g text scan {
        pos := c.found.stop
        tokens
        state
        emptySeen := if c.isEmpty then c.marker :: scan.emptySeen else scan.emptySeen }

/-- Every step of a scan moves on, or takes an empty match that was not seen before. -/
theorem moves_of_step (hpos : scan.pos ≤ text.size) (h : scan.step g text = .ok (some next)) :
    Moves g text scan next := by
  unfold Scan.step at h
  split at h
  · cases h
  next frame _ =>
    obtain ⟨move, hmove, h⟩ := bind_eq_ok.mp h
    have hbounds := move_bounds hpos hmove
    cases move with
    | rest => cases h
    | skip stop =>
      cases h
      exact .skip hbounds.1 hbounds.2
    | take c =>
      obtain ⟨after, htake, h⟩ := bind_eq_ok.mp h
      obtain ⟨tokens, -, htake⟩ := bind_eq_ok.mp htake
      obtain ⟨state, hstate, htake⟩ := bind_eq_ok.mp htake
      cases h
      cases htake
      obtain ⟨i, hi⟩ := rule_of_move hmove
      exact .take hbounds (Array.mem_toList_iff.mpr (Array.mem_of_getElem? hi))
        (fresh_of_move hmove) hstate

/-- Every step makes progress: it goes on, or makes an empty match for the first time. -/
theorem progress_lt_of_moves (h : Moves g text scan next) : scan.progress < next.progress := by
  cases h with
  | skip hpos _ => exact Nat.add_lt_add_right hpos _
  | @take _ c _ _ hin _ _ _ =>
    have hstart := hin.start
    have hordered := hin.ordered
    simp only [Scan.progress]
    split
    · rw [List.length_cons]
      omega
    next hfull =>
      have hne : c.found.start ≠ c.found.stop := by simpa [Choice.isEmpty] using hfull
      omega

/-- What is seen stays seen once. -/
theorem Scan.Tracked.of_moves (hscan : scan.Tracked g text) (h : Moves g text scan next) :
    next.Tracked g text := by
  cases h with
  | skip _ hstop => exact ⟨hstop, hscan.once, hscan.seen⟩
  | @take _ c _ _ hin hrule hfresh _ =>
    refine ⟨hin.stop, ?_, ?_⟩
    · split
      next hempty => exact List.nodup_cons.mpr ⟨hfresh hempty, hscan.once⟩
      · exact hscan.once
    · split
      · intro m hm
        rcases List.mem_cons.mp hm with rfl | hm
        · refine mem_markers.mpr ⟨le_trans hin.ordered hin.stop, ?_, c.rule, hrule, rfl⟩
          cases hkind : c.kind <;> simp [Choice.marker, hkind]
        · exact hscan.seen m hm
      · exact hscan.seen

/-- With enough steps the scan of a line comes to its end, and stops there. -/
theorem scans_of_fuel (fuel : Nat) (hscan : scan.Tracked g text)
    (hfuel : scanLimit g text.size < scan.progress + fuel) :
    ∃ n, Scans g text n scan (scanLine g text fuel scan) ∧
      scan.progress + n ≤ scanLimit g text.size := by
  -- on the steps that are left; what a step takes from them it adds to the progress
  induction fuel generalizing scan with
  | zero => exact absurd hscan.progress_le (Nat.not_le.mpr hfuel)
  | succ fuel ih =>
    cases hstep : scan.step g text with
    | error fault =>
      refine ⟨0, ?_, hscan.progress_le⟩
      rw [scanLine, hstep]
      exact .failed hstep
    | ok after =>
      cases after with
      | none =>
        refine ⟨0, ?_, hscan.progress_le⟩
        rw [scanLine, hstep]
        exact .done hstep
      | some next =>
        have hmoves := moves_of_step hscan.inside hstep
        have hmore := progress_lt_of_moves hmoves
        obtain ⟨n, hscans, hn⟩ := ih (hscan.of_moves hmoves) (by omega)
        refine ⟨n + 1, ?_, by omega⟩
        rw [scanLine, hstep]
        exact .step hstep hscans

theorem tracked_start (g : Grammar) (text : Array Char) (s : LineState) :
    (Scan.start s).Tracked g text :=
  ⟨Nat.zero_le _, List.nodup_nil, by simp [Scan.start]⟩

/-- There is more fuel than progress to make. -/
theorem scanLimit_lt_scanFuel (g : Grammar) (length : Nat) :
    scanLimit g length < scanFuel g length := by
  unfold scanLimit scanFuel
  rw [Nat.mul_add]
  omega

/-! ## Blocks -/

/-- The empty matches made so far that can have opened a block. -/
def Scan.openings (g : Grammar) (length : Nat) (scan : Scan) : List (Nat × MatchKind × Nat) :=
  scan.emptySeen.filter (· ∈ markers length {.rule} g.blocks)

/-- Each rule opens a block at most once at each place of a line without moving on. -/
theorem Scan.Tracked.length_openings_le (h : scan.Tracked g text) :
    (scan.openings g text.size).length ≤ (text.size + 1) * g.blocks.length := by
  have hkinds : ({.rule} : Finset MatchKind).card = 1 := rfl
  have hlength : (scan.openings g text.size).length ≤
      (text.size + 1) * (({.rule} : Finset MatchKind).card * g.blocks.length) :=
    length_le_of_markers (h.once.filter _) fun m hm => of_decide_eq_true (List.mem_filter.mp hm).2
  rwa [hkinds, Nat.one_mul] at hlength

theorem depth_pop_le (s : LineState) : s.pop.depth ≤ s.depth := by
  unfold LineState.pop
  split
  · exact le_refl _
  · simp [LineState.depth]

/-- A match opens at most one block, and only with the beginning of its rule. -/
theorem depth_stateAfter {c : Choice} {frame : Frame} {s s' : LineState}
    (h : c.stateAfter text frame s = .ok s') : s'.depth ≤ s.depth ∨
      s'.depth = s.depth + 1 ∧ c.kind = .rule ∧ c.rule.beginning.isSome := by
  unfold Choice.stateAfter at h
  split at h
  · rw [← Except.ok.inj h]
    exact Or.inl (depth_pop_le s)
  next hkind =>
    split at h
    next hopens =>
      obtain ⟨ending, _, h⟩ := bind_eq_ok.mp h
      rw [← Except.ok.inj h]
      exact Or.inr ⟨LineState.depth_push .., hkind, hopens⟩
    · rw [← Except.ok.inj h]
      exact Or.inl (le_refl _)

/-- The blocks that a step opens are paid for by the text that it passes or by the empty match that
it makes. -/
theorem depth_of_moves (h : Moves g text scan next) :
    next.state.depth + scan.pos + (scan.openings g text.size).length ≤
      scan.state.depth + next.pos + (next.openings g text.size).length := by
  cases h with
  | skip hpos _ =>
    simp only [Scan.openings]
    omega
  | @take _ c _ _ hin hrule _ hstate =>
    have hstart := hin.start
    have hordered := hin.ordered
    have hdepth := depth_stateAfter hstate
    simp only [Scan.openings]
    by_cases hempty : c.isEmpty = true
    · rw [if_pos hempty]
      rcases hdepth with hdepth | ⟨hdepth, hkind, hopens⟩
      · have hmore := ((List.sublist_cons_self c.marker scan.emptySeen).filter
          (· ∈ markers text.size {.rule} g.blocks)).length_le
        omega
      · -- the match is new, and can have opened a block
        have hopening : c.marker ∈ markers text.size {.rule} g.blocks := by
          refine mem_markers.mpr ⟨le_trans hin.ordered hin.stop, ?_, c.rule, ?_, rfl⟩
          · simp [Choice.marker, hkind]
          · exact List.mem_filter.mpr ⟨hrule, hopens⟩
        rw [List.filter_cons, if_pos (decide_eq_true hopening), List.length_cons]
        omega
    · have hne : c.found.start ≠ c.found.stop := by simpa [Choice.isEmpty] using hempty
      rw [if_neg hempty]
      omega

/-- A scan that ends opens at most one block for each character and each empty match. -/
theorem depth_of_scans {n : Nat} {outcome : Except Fault Scan} (h : Scans g text n scan outcome)
    (hscan : scan.Tracked g text) {last : Scan} (hlast : outcome = .ok last) :
    last.state.depth + scan.pos + (scan.openings g text.size).length ≤
      scan.state.depth + text.size + (text.size + 1) * g.blocks.length := by
  induction h with
  | done _ =>
    cases hlast
    have hinside := hscan.inside
    have hopenings := hscan.length_openings_le
    omega
  | failed _ => cases hlast
  | step hstep _ ih =>
    have hmoves := moves_of_step hscan.inside hstep
    have hdepth := depth_of_moves hmoves
    have hrest := ih (hscan.of_moves hmoves) hlast
    omega

/-! ## Lines -/

/-- The steps that a line is given are enough for it. -/
theorem scans_line (g : Grammar) (line : String) (s : LineState) :
    ∃ n, n ≤ scanLimit g line.length ∧ Scans g line.toList.toArray n (.start s)
      (scanLine g line.toList.toArray (scanFuel g line.length) (.start s)) := by
  have hlength : line.toList.toArray.size = line.length := by
    rw [List.size_toArray, String.length_toList]
  have henough : scanLimit g line.toList.toArray.size <
      (Scan.start s).progress + scanFuel g line.length := by
    rw [hlength]
    exact lt_of_lt_of_le (scanLimit_lt_scanFuel g _) (Nat.le_add_left _ _)
  obtain ⟨n, hscans, hn⟩ := scans_of_fuel _ (tracked_start g line.toList.toArray s) henough
  rw [hlength] at hn
  exact ⟨n, le_trans (Nat.le_add_left _ _) hn, hscans⟩

/-- From a state that is accepted a line is scanned to its end. -/
theorem tokenizeLine_eq {line : String} {previous : Previous} {s : LineState}
    (hstart : startState g previous = .ok s) : g.tokenizeLine line previous =
      (scanLine g line.toList.toArray (scanFuel g line.length) (.start s)).map
        (·.finish line.length) := by
  have hlength : line.toList.toArray.size = line.length := by
    rw [List.size_toArray, String.length_toList]
  unfold tokenizeLine
  rw [hstart, ← hlength]
  rfl

/-- The scan of a line ends, with a result or with a failure, and tokenizing the line gives what it
comes to. The blocks that are open afterwards are at most those that were open before, one for each
character, and one for each place and each rule that opens blocks. -/
theorem scan_ends (g : Grammar) (line : String) {previous : Previous} {s : LineState}
    (hstart : startState g previous = .ok s) :
    ∃ n outcome, Scans g line.toList.toArray n (.start s) outcome ∧
      n ≤ scanLimit g line.length ∧
      g.tokenizeLine line previous = outcome.map (·.finish line.length) ∧
      ∀ r, g.tokenizeLine line previous = .ok r →
        r.state.depth ≤ s.depth + line.length + (line.length + 1) * g.blocks.length := by
  obtain ⟨n, hn, hscans⟩ := scans_line g line s
  refine ⟨n, _, hscans, hn, tokenizeLine_eq hstart, ?_⟩
  intro r hr
  rw [tokenizeLine_eq hstart] at hr
  cases hlast : scanLine g line.toList.toArray (scanFuel g line.length) (.start s) with
  | error fault =>
    rw [hlast] at hr
    cases hr
  | ok last =>
    rw [hlast] at hr hscans
    cases hr
    have hdepth := depth_of_scans hscans (tracked_start g _ s) rfl
    rw [List.size_toArray, String.length_toList] at hdepth
    exact le_trans (Nat.le_add_right _ _) (le_trans (Nat.le_add_right _ _) hdepth)

/-- Blocks of two kinds that begin with nothing, each inside the other. -/
def hollow : Json :=
  let block (name inner : String) : Json :=
    .obj [("begin", .str ""), ("end", .str "b"), ("name", .str name),
      ("patterns", .arr [.obj [("include", .str inner)]])]
  .obj [("scopeName", .str "s"), ("patterns", .arr [.obj [("include", .str "#x")]]),
    ("repository", .obj [("x", block "x" "#y"), ("y", block "y" "#x")])]

/-- Both kinds of blocks open at every place of a line, and yet its scan ends. -/
theorem hollow_scan_ends :
    ∃ g r, ofJson anonymous hollow = .ok g ∧ startState g .nothing = .ok g.initialState ∧
      g.tokenizeLine "aa" = .ok r ∧
      (∃ n outcome, Scans g "aa".toList.toArray n (.start g.initialState) outcome ∧
        n ≤ scanLimit g "aa".length ∧
        g.tokenizeLine "aa" = outcome.map (·.finish "aa".length)) ∧
      r.state.depth = 7 ∧ g.blocks.length = 2 ∧ 7 ≤ 1 + 2 + 3 * 2 := by
  have hrun : (do
      let g ← ofJson anonymous hollow
      let r ← g.tokenizeLine "aa"
      return (r.state.depth, g.blocks.length)).toOption = some (7, 2) := by
    decide +kernel
  cases hg : ofJson anonymous hollow with
  | error f => rw [hg] at hrun; cases hrun
  | ok g =>
    cases hr : g.tokenizeLine "aa" with
    | error f => simp [hg, hr, bind, Except.bind, Except.toOption] at hrun
    | ok r =>
      simp only [hg, hr, bind, Except.bind, Except.toOption, pure, Except.pure,
        Option.some.injEq, Prod.mk.injEq] at hrun
      obtain ⟨hdepth, hblocks⟩ := hrun
      have hstart : startState g .nothing = .ok g.initialState := rfl
      obtain ⟨n, outcome, hscans, hn, hline, hbound⟩ := scan_ends g "aa" hstart
      refine ⟨g, r, rfl, rfl, hr, ⟨n, outcome, hscans, hn, hr ▸ hline⟩, hdepth, hblocks, ?_⟩
      have hle := hbound r hr
      rw [hdepth, hblocks] at hle
      exact hle

end Grammar

end Conceal
