import Conceal.Proofs.Registry.Loading

/-!
A registry that several callers share. A call for a grammar looks its scope name up, reads the file
of the contribution that it has chosen, and keeps what it has read, each at once; between these
steps other calls go on, and contributions and files come and change. What is kept for a scope name
comes from the file of the first contribution for it all the same, since this one stays the first.
Main statement: `shared_coherent`.
-/

namespace Conceal

namespace Registry

/-! ## Calls and their steps -/

/-- How far a call for a grammar has come. -/
inductive Phase where
  | asked
  /-- There was nothing to give, and this contribution is to be read. -/
  | chosen (c : Contribution)
  /-- The file was read; the grammar is still to be kept. -/
  | read (grammar : Grammar)
  | returned (result : Except Fault (Option Loaded))

/-- A call for the grammar of a scope name. -/
structure Call where
  scopeName : String
  phase : Phase

/-- The next step of a call, and what becomes of the registry. -/
def Call.advance (call : Call) (r : Registry) (files : FileTree) : Phase × Registry :=
  match call.phase with
  | .asked =>
    match r.lookUp call.scopeName with
    | .loaded l => (.returned (.ok (some l)), r)
    | .contributed c => (.chosen c, r)
    | .unknown => (.returned (.ok none), r)
  | .chosen c =>
    match readGrammar files c with
    | .ok grammar => (.read grammar, r)
    | .error fault => (.returned (.error fault), r)
  | .read grammar =>
    let (l, r) := r.keep call.scopeName grammar
    (.returned (.ok (some l)), r)
  | .returned result => (.returned result, r)

/-- A registry with the files that it reads and the calls that were made to it. -/
structure Shared where
  registry : Registry
  files : FileTree
  calls : List Call := []

/-- What happens next to a shared registry. -/
inductive Move where
  | register (c : Contribution)
  | call (scopeName : String)
  /-- A call that was made goes on by one step. -/
  | advance (i : Nat)
  | change (files : FileTree)

namespace Shared

/-- A registry that was given contributions and has read nothing yet. -/
def fresh (contributions : List Contribution) (files : FileTree) : Shared :=
  { registry := { contributions }, files }

/-- A shared registry after one move; one with a call that is not there changes nothing. -/
def step (s : Shared) : Move → Shared
  | .register c => { s with registry := s.registry.register c }
  | .call scopeName => { s with calls := s.calls ++ [⟨scopeName, .asked⟩] }
  | .advance i =>
    match s.calls[i]? with
    | some call =>
      let (phase, registry) := call.advance s.registry s.files
      { s with registry, calls := s.calls.set i { call with phase } }
    | none => s
  | .change files => { s with files }

/-- A shared registry after moves. -/
def run (s : Shared) (moves : List Move) : Shared := moves.foldl step s

/-- A call has been made that has not looked its scope name up yet. -/
def Asked (s : Shared) (i : Nat) (scopeName : String) : Prop :=
  s.calls[i]? = some ⟨scopeName, .asked⟩

/-- A call for a scope name has returned. -/
def Returned (s : Shared) (i : Nat) (scopeName : String) (result : Except Fault (Option Loaded)) :
    Prop :=
  s.calls[i]? = some ⟨scopeName, .returned result⟩

theorem run_append (s : Shared) (moves more : List Move) :
    s.run (moves ++ more) = (s.run moves).run more := List.foldl_append

theorem run_concat (s : Shared) (moves : List Move) (m : Move) :
    s.run (moves ++ [m]) = (s.run moves).step m := run_append s moves [m]

end Shared

variable {said said' : Contribution → Grammar → Prop} {r : Registry} {files : FileTree}
  {s : Shared} {m : Move} {moves : List Move} {scopeName : String} {phase : Phase}
  {grammar : Grammar} {i : Nat}

/-- One step of one call: the other calls and the files stay. -/
theorem Shared.step_advance {call : Call} (h : s.calls[i]? = some call) :
    s.step (.advance i) = { s with
      registry := (call.advance s.registry s.files).2
      calls := s.calls.set i ⟨call.scopeName, (call.advance s.registry s.files).1⟩ } := by
  simp only [step, h]

/-- What a step of a call does. -/
inductive Advances (r : Registry) (files : FileTree) (scopeName : String) :
    Phase → Phase → Registry → Prop
  | given {l : Loaded} (h : (scopeName, l) ∈ r.loaded) :
      Advances r files scopeName .asked (.returned (.ok (some l))) r
  | choose {c : Contribution} (h : IsFirst r.contributions scopeName c) :
      Advances r files scopeName .asked (.chosen c) r
  | missing (h : scopeName = "" ∨ Uncontributed r.contributions scopeName) :
      Advances r files scopeName .asked (.returned (.ok none)) r
  | read {c : Contribution} {grammar : Grammar} (h : Says files c grammar) :
      Advances r files scopeName (.chosen c) (.read grammar) r
  | failed {c : Contribution} {fault : Fault} :
      Advances r files scopeName (.chosen c) (.returned (.error fault)) r
  | keep {grammar : Grammar} : Advances r files scopeName (.read grammar)
      (.returned (.ok (some (r.keep scopeName grammar).1))) (r.keep scopeName grammar).2
  | stay {result : Except Fault (Option Loaded)} :
      Advances r files scopeName (.returned result) (.returned result) r

/-- Every step of a call is one of those listed. -/
theorem advances_advance (scopeName : String) (phase : Phase) (r : Registry) (files : FileTree) :
    let after := Call.advance ⟨scopeName, phase⟩ r files
    Advances r files scopeName phase after.1 after.2 := by
  unfold Call.advance
  dsimp only
  cases phase with
  | asked =>
    dsimp only
    split
    next hlookUp => exact .given (mem_loaded_of_lookUp hlookUp)
    next hlookUp => exact .choose (lookUp_eq_contributed_iff.mp hlookUp).first
    next hlookUp => exact .missing ((lookUp_eq_unknown_iff.mp hlookUp).imp_right And.right)
  | chosen c =>
    dsimp only
    split
    next hread => exact .read (says_of_readGrammar hread)
    · exact .failed
  | read grammar => exact .keep
  | returned result => exact .stay

/-- A step leaves the registry alone, unless it ends the call with a grammar. -/
theorem Advances.registry {phase' : Phase} {r' : Registry}
    (h : Advances r files scopeName phase phase' r') :
    r' = r ∨ ∃ l, phase' = .returned (.ok (some l)) := by
  cases h with
  | keep => exact Or.inr ⟨_, rfl⟩
  | _ => exact Or.inl rfl

/-! ## Where grammars come from -/

/-- A grammar is what the first contribution for a scope name said. -/
def From (said : Contribution → Grammar → Prop) (contributions : List Contribution)
    (scopeName : String) (grammar : Grammar) : Prop :=
  ∃ c, IsFirst contributions scopeName c ∧ said c grammar

/-- What a call has at hand comes from the first contribution for its scope name. -/
inductive Phase.Good (said : Contribution → Grammar → Prop) (contributions : List Contribution)
    (scopeName : String) : Phase → Prop
  | asked : Good said contributions scopeName .asked
  | chosen {c : Contribution} (h : IsFirst contributions scopeName c) :
      Good said contributions scopeName (.chosen c)
  | read {grammar : Grammar} (h : From said contributions scopeName grammar) :
      Good said contributions scopeName (.read grammar)
  | found {l : Loaded} (h : From said contributions scopeName l.grammar) :
      Good said contributions scopeName (.returned (.ok (some l)))
  | missing : Good said contributions scopeName (.returned (.ok none))
  | failed {fault : Fault} : Good said contributions scopeName (.returned (.error fault))

section grows

variable {contributions : List Contribution}

/-- What has been said once stays said, and the first contribution stays the first. -/
theorem From.grow (h : From said contributions scopeName grammar)
    (hsaid : ∀ c grammar, said c grammar → said' c grammar) (more : List Contribution) :
    From said' (contributions ++ more) scopeName grammar := by
  obtain ⟨c, hfirst, hc⟩ := h
  exact ⟨c, hfirst.append more, hsaid c grammar hc⟩

/-- What was said before is still said later, so that a call stays good. -/
theorem Phase.Good.grow (h : phase.Good said contributions scopeName)
    (hsaid : ∀ c grammar, said c grammar → said' c grammar) (more : List Contribution) :
    phase.Good said' (contributions ++ more) scopeName := by
  cases h with
  | asked => exact .asked
  | chosen h => exact .chosen (h.append more)
  | read h => exact .read (h.grow hsaid more)
  | found h => exact .found (h.grow hsaid more)
  | missing => exact .missing
  | failed => exact .failed

end grows

/-- What a registry keeps comes from the first contributions. -/
def Keeps (said : Contribution → Grammar → Prop) (r : Registry) : Prop :=
  ∀ scopeName l, (scopeName, l) ∈ r.loaded → From said r.contributions scopeName l.grammar

/-- A step of a call leaves the contributions alone, and only adds what comes from them. -/
theorem Advances.good {phase' : Phase} {r' : Registry}
    (h : Advances r files scopeName phase phase' r')
    (hsaid : ∀ c grammar, Says files c grammar → said c grammar) (hkeeps : Keeps said r)
    (hgood : phase.Good said r.contributions scopeName) :
    r'.contributions = r.contributions ∧ Keeps said r' ∧
      phase'.Good said r.contributions scopeName := by
  cases h with
  | given hl => exact ⟨rfl, hkeeps, .found (hkeeps _ _ hl)⟩
  | choose hfirst => exact ⟨rfl, hkeeps, .chosen hfirst⟩
  | missing => exact ⟨rfl, hkeeps, .missing⟩
  | read hsays =>
    cases hgood with | chosen hfirst =>
    exact ⟨rfl, hkeeps, .read ⟨_, hfirst, hsaid _ _ hsays⟩⟩
  | failed => exact ⟨rfl, hkeeps, .failed⟩
  | keep =>
    cases hgood with | read hfrom =>
    refine ⟨rfl, ?_, .found hfrom⟩
    -- it takes the place of what was kept for its scope name, and nothing else is touched
    intro name l hl
    rcases List.mem_cons.mp hl with h | h
    · cases h
      exact hfrom
    · exact hkeeps name l (List.mem_of_mem_filter h)
  | stay => exact ⟨rfl, hkeeps, hgood⟩

namespace Shared

/-- All that is kept, and all that calls have at hand, comes from the first contributions. -/
structure Coherent (said : Contribution → Grammar → Prop) (s : Shared) : Prop where
  keeps : Keeps said s.registry
  calls : ∀ call ∈ s.calls, call.phase.Good said s.registry.contributions call.scopeName

theorem Coherent.grow (h : s.Coherent said)
    (hsaid : ∀ c grammar, said c grammar → said' c grammar) : s.Coherent said' where
  keeps name l hl := by
    have hfrom := (h.keeps name l hl).grow hsaid []
    rwa [List.append_nil] at hfrom
  calls call hcall := by
    have hgood := (h.calls call hcall).grow hsaid []
    rwa [List.append_nil] at hgood

/-- Whatever happens next, this stays so. -/
theorem Coherent.step (h : s.Coherent said)
    (hsaid : ∀ c grammar, Says s.files c grammar → said c grammar) (m : Move) :
    (s.step m).Coherent said := by
  cases m with
  | register c =>
    -- it comes after all others, so what is underway for its scope name is still good
    refine ⟨?_, fun call hcall => (h.calls call hcall).grow (fun _ _ hc => hc) [c]⟩
    intro name l hl
    exact (h.keeps name l (List.mem_of_mem_filter hl)).grow (fun _ _ hc => hc) [c]
  | call name =>
    refine ⟨h.keeps, ?_⟩
    intro call hcall
    rcases List.mem_append.mp hcall with hold | hnew
    · exact h.calls call hold
    · rw [List.mem_singleton.mp hnew]
      exact .asked
  | change files => exact ⟨h.keeps, h.calls⟩
  | advance i =>
    cases hcall : s.calls[i]? with
    | none =>
      simp only [Shared.step, hcall]
      exact h
    | some call =>
      have hgood := h.calls call (List.mem_of_getElem? hcall)
      obtain ⟨hsame, hkeeps, hafter⟩ :=
        (advances_advance call.scopeName call.phase s.registry s.files).good hsaid h.keeps hgood
      rw [step_advance hcall]
      refine ⟨hkeeps, ?_⟩
      intro other hother
      dsimp only
      rw [hsame]
      rcases List.mem_or_eq_of_mem_set hother with hold | rfl
      · exact h.calls other hold
      · exact hafter

/-- At some moment of a run the file of a contribution says what the grammar is. -/
def SaidDuring (start : Shared) (moves : List Move) (c : Contribution) (grammar : Grammar) : Prop :=
  ∃ before, before <+: moves ∧ Says (start.run before).files c grammar

/-- So it is after every run of a registry that has kept nothing before. -/
theorem coherent_run {start : Shared} (h : start.Coherent (start.SaidDuring []))
    (moves : List Move) : (start.run moves).Coherent (start.SaidDuring moves) := by
  induction moves using List.reverseRecOn with
  | nil => exact h
  | append_singleton moves m ih =>
    have hgrows : ∀ c grammar, start.SaidDuring moves c grammar →
        start.SaidDuring (moves ++ [m]) c grammar := by
      rintro c grammar ⟨before, hbefore, hsays⟩
      exact ⟨before, hbefore.trans (List.prefix_append _ _), hsays⟩
    -- what the files say before the last move was said at a moment of the run
    rw [run_concat]
    exact (ih.grow hgrows).step (fun c grammar hsays => ⟨moves, List.prefix_append _ _, hsays⟩) m

/-! ## What calls return -/

/-- With a move a call stays what it is, or it is made, or the move takes it on by one step. -/
theorem call_step (s : Shared) (m : Move) (i : Nat) :
    (s.step m).calls[i]? = s.calls[i]? ∨
    (∃ scopeName, s.calls[i]? = none ∧ (s.step m).Asked i scopeName) ∨
    ∃ scopeName old phase, m = .advance i ∧ s.calls[i]? = some ⟨scopeName, old⟩ ∧
      (s.step m).calls[i]? = some ⟨scopeName, phase⟩ ∧
      ∃ r', Advances s.registry s.files scopeName old phase r' := by
  cases m with
  | register c => exact Or.inl rfl
  | change files => exact Or.inl rfl
  | call name =>
    -- the new call is put after those that are there
    rcases Nat.lt_trichotomy i s.calls.length with hi | rfl | hi
    · exact Or.inl (List.getElem?_append_left hi)
    · exact Or.inr (Or.inl ⟨name, by simp, by simp [Asked, step]⟩)
    · refine Or.inl ?_
      rw [List.getElem?_eq_none (Nat.le_of_lt hi), List.getElem?_eq_none]
      rw [step, List.length_append]
      exact hi
  | advance j =>
    cases hcall : s.calls[j]? with
    | none => exact Or.inl (by simp only [step, hcall])
    | some call =>
      rw [step_advance hcall]
      by_cases hij : j = i
      · subst hij
        have hi := (List.getElem?_eq_some_iff.mp hcall).1
        exact Or.inr (Or.inr ⟨call.scopeName, call.phase, _, rfl, hcall,
          List.getElem?_set_self hi, _, advances_advance _ _ _ _⟩)
      · exact Or.inl (List.getElem?_set_ne hij)

/-- What a call has returned it returns for good. -/
theorem Returned.run {result : Except Fault (Option Loaded)} (h : s.Returned i scopeName result)
    (moves : List Move) : (s.run moves).Returned i scopeName result := by
  induction moves generalizing s with
  | nil => exact h
  | cons m rest ih =>
    refine ih (s := s.step m) ?_
    rcases call_step s m i with hsame | ⟨_, hnew, -⟩ | ⟨_, _, _, -, hold, hafter, _, hadvances⟩
    · exact hsame.trans h
    · cases hnew.symm.trans h
    · cases hold.symm.trans h
      cases hadvances
      exact hafter

/-- In the course of a run a call has looked for a contribution and found none. -/
def Misses (start : Shared) (moves : List Move) (i : Nat) (scopeName : String) : Prop :=
  ∃ before, before ++ [.advance i] <+: moves ∧
    (start.run before).Asked i scopeName ∧
    (scopeName = "" ∨ Uncontributed (start.run before).registry.contributions scopeName)

/-- A call that returned without a grammar looked for it where it was not. -/
theorem misses_of_returned {start : Shared} (hstart : start.calls = [])
    (h : (start.run moves).Returned i scopeName (.ok none)) : start.Misses moves i scopeName := by
  -- back from the end of the run to the move with which it has returned
  induction moves using List.reverseRecOn with
  | nil =>
    rw [Returned, run, List.foldl_nil, hstart] at h
    cases h
  | append_singleton moves m ih =>
    have hearlier : start.Misses moves i scopeName → start.Misses (moves ++ [m]) i scopeName := by
      rintro ⟨before, hbefore, hrest⟩
      exact ⟨before, hbefore.trans (List.prefix_append moves [m]), hrest⟩
    rw [run_concat] at h
    rcases call_step (start.run moves) m i with
      hsame | ⟨_, -, hasked⟩ | ⟨_, _, _, rfl, hold, hafter, _, hadvances⟩
    · exact hearlier (ih (hsame.symm.trans h))
    · cases hasked.symm.trans h
    · cases hafter.symm.trans h
      -- it looks just now and finds nothing, or it has returned before
      cases hadvances with
      | missing hnone => exact ⟨moves, List.prefix_refl _, hold, hnone⟩
      | stay => exact hearlier (ih hold)

/-- A step of a call that changes the registry is one with which it returns a grammar. -/
theorem registry_step_advance (s : Shared) (i : Nat) :
    (s.step (.advance i)).registry = s.registry ∨
      ∃ scopeName l, (s.step (.advance i)).Returned i scopeName (.ok (some l)) := by
  cases hcall : s.calls[i]? with
  | none => exact Or.inl (by simp only [step, hcall])
  | some call =>
    have hadvances := advances_advance call.scopeName call.phase s.registry s.files
    rw [step_advance hcall]
    rcases hadvances.registry with hsame | ⟨l, hl⟩
    · exact Or.inl hsame
    · refine Or.inr ⟨call.scopeName, l, ?_⟩
      rw [Returned, ← hl]
      exact List.getElem?_set_self (List.getElem?_eq_some_iff.mp hcall).1

/-- No step of a call that fails changes the registry. -/
theorem registry_of_failed {start : Shared} {fault : Fault}
    (h : (start.run moves).Returned i scopeName (.error fault)) {before : List Move}
    (hbefore : before ++ [.advance i] <+: moves) :
    (start.run (before ++ [.advance i])).registry = (start.run before).registry := by
  obtain ⟨rest, rfl⟩ := hbefore
  rw [run_append] at h
  rw [run_concat] at h ⊢
  refine (registry_step_advance (start.run before) i).resolve_right ?_
  rintro ⟨name, l, hl⟩
  -- it would have returned the grammar for good
  cases (hl.run rest).symm.trans h

/-- What a call and its registry become with the next step. -/
def proceed (files : FileTree) (scopeName : String) (now : Phase × Registry) : Phase × Registry :=
  Call.advance ⟨scopeName, now.1⟩ now.2 files

/-- Three steps in a row do what a registry without other callers does. -/
theorem proceed_thrice (r : Registry) (files : FileTree) (scopeName : String) :
    proceed files scopeName (proceed files scopeName (proceed files scopeName (.asked, r))) =
      (.returned (r.load files scopeName).1, (r.load files scopeName).2) := by
  unfold load
  cases hlookUp : r.lookUp scopeName with
  | loaded l => simp [proceed, Call.advance, hlookUp]
  | unknown => simp [proceed, Call.advance, hlookUp]
  | contributed c =>
    cases hread : readGrammar files c with
    | error fault => simp [proceed, Call.advance, hlookUp, hread]
    | ok grammar => simp [proceed, Call.advance, hlookUp, hread]

theorem step_proceed (now : Phase × Registry) (hfiles : s.files = files)
    (hregistry : s.registry = now.2) (hcall : s.calls[i]? = some ⟨scopeName, now.1⟩) :
    (s.step (.advance i)).files = files ∧
      (s.step (.advance i)).registry = (proceed files scopeName now).2 ∧
      (s.step (.advance i)).calls[i]? = some ⟨scopeName, (proceed files scopeName now).1⟩ := by
  subst hfiles
  rw [step_advance hcall, hregistry]
  exact ⟨rfl, rfl, List.getElem?_set_self (List.getElem?_eq_some_iff.mp hcall).1⟩

/-- So does a call that nothing comes between. -/
theorem Asked.run (h : s.Asked i scopeName) :
    let after := s.run [.advance i, .advance i, .advance i]
    after.Returned i scopeName (s.registry.load s.files scopeName).1 ∧
      after.registry = (s.registry.load s.files scopeName).2 := by
  obtain ⟨hfiles, hregistry, hcall⟩ := step_proceed (.asked, s.registry) rfl rfl h
  obtain ⟨hfiles, hregistry, hcall⟩ := step_proceed _ hfiles hregistry hcall
  obtain ⟨-, hregistry, hcall⟩ := step_proceed _ hfiles hregistry hcall
  rw [proceed_thrice] at hregistry hcall
  exact ⟨hcall, hregistry⟩

/-- Whatever comes between the steps of calls to a registry that was given contributions and has
read nothing yet: what is kept for a scope name was said by the file of the first contribution for
it at some moment of the run. A call that has returned a grammar has returned such a one; a call for
another than the empty scope name that has returned none found no contribution as it looked for one;
and no step of a call that has failed has changed the registry. A call that nothing comes between
does what a registry without other callers does. -/
theorem shared_coherent (contributions : List Contribution) (files : FileTree)
    (moves : List Move) :
    let start := fresh contributions files
    let now := start.run moves
    (∀ scopeName l, (scopeName, l) ∈ now.registry.loaded →
      ∃ c, IsFirst now.registry.contributions scopeName c ∧ start.SaidDuring moves c l.grammar) ∧
    (∀ i scopeName l, now.Returned i scopeName (.ok (some l)) →
      ∃ c, IsFirst now.registry.contributions scopeName c ∧ start.SaidDuring moves c l.grammar) ∧
    (∀ i scopeName, now.Returned i scopeName (.ok none) → scopeName ≠ "" →
      ∃ before, before ++ [.advance i] <+: moves ∧ (start.run before).Asked i scopeName ∧
        Uncontributed (start.run before).registry.contributions scopeName) ∧
    (∀ i scopeName fault, now.Returned i scopeName (.error fault) →
      ∀ before, before ++ [.advance i] <+: moves →
        (start.run (before ++ [.advance i])).registry = (start.run before).registry) ∧
    ∀ i scopeName, now.Asked i scopeName →
      let after := now.run [.advance i, .advance i, .advance i]
      after.Returned i scopeName (now.registry.load now.files scopeName).1 ∧
        after.registry = (now.registry.load now.files scopeName).2 := by
  intro start now
  -- nothing is kept and nobody has asked, so that it holds in the beginning
  have hstart : start.Coherent (start.SaidDuring []) :=
    ⟨by simp [Keeps, start, fresh], by simp [start, fresh]⟩
  obtain ⟨hkeeps, hcalls⟩ := coherent_run hstart moves
  refine ⟨hkeeps, ?_, ?_, ?_, fun i name => Asked.run⟩
  · intro i name l hl
    cases hcalls _ (List.mem_of_getElem? hl) with | found hfrom =>
    exact hfrom
  · intro i name hnone hname
    obtain ⟨before, hbefore, hasked, hlooked⟩ := misses_of_returned rfl hnone
    exact ⟨before, hbefore, hasked, hlooked.resolve_left hname⟩
  · intro i name fault hfault before hbefore
    exact registry_of_failed hfault hbefore

/-- The file of a contribution, with a grammar for a certain scope name. -/
def grammarFile (inside : String) : FileTree :=
  loneFile (Text.toBytes ("\x7b\"scopeName\":\"" ++ inside ++ "\"\x7d"))

/-- While a call is under way its file changes twice, and another contribution comes for its scope
name. -/
def slippedIn : List Move :=
  [.call "s", .advance 0, .change (grammarFile "b"), .register ⟨"s", ⟨"/", ["h"]⟩, none⟩,
    .advance 0, .change (grammarFile "c"), .advance 0]

/-- The scope name that a call was for, and the one inside the grammar that it has returned. -/
def answer (s : Shared) (i : Nat) : Option (String × String) :=
  match s.calls[i]? with
  | some ⟨scopeName, .returned (.ok (some l))⟩ => some (scopeName, l.grammar.scopeName)
  | _ => none

theorem returned_of_answer {inside : String} (h : s.answer i = some (scopeName, inside)) :
    ∃ l, s.Returned i scopeName (.ok (some l)) ∧ l.grammar.scopeName = inside := by
  unfold answer at h
  split at h
  next l hcall =>
    cases h
    exact ⟨l, hcall, rfl⟩
  · cases h

/-- It returns the grammar that the file of the first contribution held as it was read. -/
theorem slippedIn_returned :
    ∃ l, ((fresh lone.contributions (grammarFile "a")).run slippedIn).Returned 0 "s"
        (.ok (some l)) ∧
      l.grammar.scopeName = "b" ∧
      ∃ c, IsFirst ((fresh lone.contributions (grammarFile "a")).run
          slippedIn).registry.contributions "s" c ∧
        (fresh lone.contributions (grammarFile "a")).SaidDuring slippedIn c l.grammar := by
  obtain ⟨-, hreturned, -⟩ := shared_coherent lone.contributions (grammarFile "a") slippedIn
  have hanswer : ((fresh lone.contributions (grammarFile "a")).run slippedIn).answer 0 =
      some ("s", "b") := by decide +kernel
  obtain ⟨l, hl, hinside⟩ := returned_of_answer hanswer
  exact ⟨l, hl, hinside, hreturned 0 "s" l hl⟩

end Shared

end Registry

end Conceal
