import Conceal.Proofs.Scopes.Queries
import Conceal.Proofs.Session.Heard
import Conceal.Proofs.Session.Passes

/-!
Scopes that are not found anew. An update takes the scopes to be found when nothing has made them
stale and the revision and the tokenizer are those that they were last found for. They are then those
of the document, if a revision has one text while no change of it is heard; except when an update
has since failed halfway to find others. Main statement: `scopes_of_begun`.
-/

namespace Conceal

/-! ## Scopes of all lines -/

namespace LineScopes

/-- There is no tokenizer and no state, or the states are those of a run of the tokenizer over all
lines of a document. -/
def Full (l : LineScopes) (d : Document) : Prop :=
  (l.tokenizer = none ∧ l.states = []) ∨
    ∃ t results last, l.tokenizer = some t ∧ t.Runs none d.lines results last ∧
      l.states = results.map LineTokens.state

variable {l l' : LineScopes} {d d' : Document}

/-- Only the tokenizer, the states and the text tell whether all lines are covered. -/
theorem Full.congr (h : l.Full d) (htokenizer : l'.tokenizer = l.tokenizer)
    (hstates : l'.states = l.states) (htext : d'.text = d.text) : l'.Full d' := by
  have hlines : d'.lines = d.lines := by
    unfold Document.lines Document.lineCount Document.line? Document.lineStarts Document.length
    rw [htext]
  unfold Full
  rwa [htokenizer, hstates, hlines]

/-- A rebuild that does not fail gives the states of all lines. -/
theorem full_rebuild (hdocument : l.document = some d) (hok : l.rebuild.fault = none) :
    l.rebuild.scopes.document = some d ∧ l.rebuild.scopes.Full d := by
  obtain ⟨document, tokenizer, states⟩ := l
  obtain rfl : document = some d := hdocument
  cases tokenizer with
  | none => exact ⟨rfl, Or.inl ⟨rfl, rfl⟩⟩
  | some t =>
    have hrebuilt := rebuild_eq d t states
    generalize rebuild ⟨some d, some t, states⟩ = r at hrebuilt hok ⊢
    cases hrebuilt with
    | all hruns => exact ⟨rfl, Or.inr ⟨t, _, _, rfl, hruns, rfl⟩⟩
    | dropped => exact ⟨rfl, Or.inl ⟨rfl, rfl⟩⟩
    | failed => cases hok

end LineScopes

namespace Session

variable {s s' : Session}

/-! ## What keeps the scopes -/

/-- What a session knows about the scopes that it has found. -/
structure Books where
  stale : Bool
  tokenizedFor : Option (Int × Option Nat)
  tokenizer? : Option Tokenizer
  states : List LineState
  editor? : Option String

def books (s : Session) : Books :=
  ⟨s.stale, s.tokenizedFor, s.tokenizer?, s.masking.scopes.states, s.editor?⟩

/-- The scopes have become stale, or nothing has happened to them. -/
def Steady (s s' : Session) : Prop := s'.stale = true ∨ s'.books = s.books

instance : Std.Refl Steady := ⟨fun _ => Or.inr rfl⟩

/-- Scopes that were steady twice are steady. -/
theorem Steady.trans {s'' : Session} (h : Steady s s') (h' : Steady s' s'') : Steady s s'' := by
  rcases h' with hstale | hbooks
  · exact Or.inl hstale
  · rcases h with hstale | hbooks'
    · exact Or.inl ((congrArg Books.stale hbooks).trans hstale)
    · exact Or.inr (hbooks.trans hbooks')

instance : Trans Steady Steady Steady := ⟨Steady.trans⟩

/-- Asking for a document changes nothing in the books. -/
theorem books_snapshot (name : String) (s : Session) :
    (Step.after (onDesk (Desk.snapshot name)) s).books = s.books := by
  rw [after_onDesk]
  rfl

theorem steady_useTokenizer (t : Option Tokenizer) (scopeName : String) (s : Session) :
    Steady s (useTokenizer t scopeName s) := Or.inl rfl

theorem hearing_steady : Hearing Steady where
  request := obeys_requestGrammar (fun _ => Or.inr rfl)
    (fun s name _ => Or.inr (books_snapshot name s)) (fun _ _ => Or.inr rfl)
    (steady_useTokenizer none "") (fun _ _ => Or.inr rfl)
  schedule _ := Or.inr rfl
  textChanged _ := Or.inl rfl

theorem steady_poll (s : Session) : Steady s s.poll :=
  rel_poll (fun _ _ _ _ => Or.inl rfl) (fun _ _ _ => Or.inr rfl) s

/-- Nor does a change of the decorations. -/
theorem Redecorates.books (h : Redecorates s s') : s'.books = s.books := by
  have heditor := h.editor
  rw [h.rest] at heditor ⊢
  exact congrArg (Books.mk s.stale s.tokenizedFor s.tokenizer? s.masking.scopes.states) heditor

theorem steady_setSettings (settings : Json) : Step.Obeys Steady (setSettings settings) := by
  unfold setSettings
  refine (Step.obeys_ofExcept _).bind fun _ => ?_
  refine Step.Obeys.bind (Step.obeys_modify fun _ => Or.inr rfl) fun _ => ?_
  exact Step.Obeys.bind (fun s => Or.inr (redecorates_clear s).books) fun _ =>
    Step.obeys_modify fun _ => Or.inl rfl

theorem steady_shutDown : Step.Obeys Steady shutDown := by
  intro s
  have hrest : s.atRest.books = s.books := rfl
  exact Or.inr ((redecorates_shutDown s).books.trans hrest)

/-- The scopes of another editor are to be found anew. -/
theorem stale_takeUp (editor : Option String) (s : Session) :
    (Step.after (takeUp editor) s).stale = true := by
  have hsettleIn (document : Option Document) (s : Session) :
      (Step.after (settleIn editor document) s).stale = true := by
    unfold settleIn
    rw [Step.after_bind_of_ok (Step.modify_apply s _)]
    -- nothing that follows finds them
    have hlater : Step.Obeys Steady
        (Step.forSome editor (fun name => modify (connect name)) >>= fun _ => languageMayChange) :=
      Step.Obeys.bind (Step.obeys_forSome fun _ => Step.obeys_modify fun _ => Or.inr rfl) fun _ =>
        hearing_steady.languageMayChange
    rcases hlater _ with hstale | hbooks
    · exact hstale
    · exact congrArg Books.stale hbooks
  cases editor with
  | none => exact hsettleIn none s
  | some name =>
    unfold takeUp
    rw [Step.after_bind_of_ok (onDesk_snapshot_eq name s)]
    exact hsettleIn _ _

/-- A turn to another editor makes the scopes stale, or fails before it touches the books. -/
theorem steady_setEditor (editor : Option String) : Step.Obeys Steady (setEditor editor) := by
  intro s
  by_cases hne : editor = s.editor?
  · rw [setEditor_of_eq hne]
    exact Or.inr rfl
  · rcases after_setEditor hne with ⟨d, -, hafter⟩ | ⟨-, -, -, -, hredecorates⟩
    · rw [hafter]
      exact Or.inl (stale_takeUp editor _)
    · exact Or.inr hredecorates.books

/-- Only an update finds scopes. -/
theorem steady_handle {e : Event} (h : e ≠ .pauseOver) : Step.Obeys Steady (handle e) := by
  cases e with
  | pauseOver => exact absurd rfl h
  | turnTo editor => exact steady_setEditor editor
  | settingsChanged settings => exact steady_setSettings settings
  | closed => exact steady_shutDown
  | _ =>
    exact hearing_steady.handle (fun _ _ _ _ _ => Or.inr rfl) (fun _ _ _ => Or.inr rfl) steady_poll
      rfl

/-- Applying rules leaves the scopes alone. -/
theorem books_mask (document : Document) (s : Session) :
    (Step.after (mask document) s).books = s.books := by
  have hworks := Masking.works_update (works_applyRules document s.caretStyle s.rules) s.masking
  have hupdate : (Step.after (onMasking
      (Masking.update (applyRules document s.caretStyle s.rules))) s).books = s.books := by
    rw [onMasking, Step.after_on]
    exact congrArg₂ (fun (scopes : LineScopes) host =>
      Books.mk s.stale s.tokenizedFor scopes.tokenizer scopes.states host)
      hworks.scopes hworks.decorations.host
  have hsame : Std.Refl fun s s' : Session => s'.books = s.books := ⟨fun _ => rfl⟩
  have hannounce := Step.rel_after_bind (R := fun s s' : Session => s'.books = s.books)
    (x := onMasking (Masking.update (applyRules document s.caretStyle s.rules)))
    (f := fun applied => modify (announce (.masked applied))) (s := s) fun _ _ _ => rfl
  unfold mask
  rw [Step.after_bind_of_ok (Step.get_apply s)]
  exact hannounce.trans hupdate

/-- An update that looks at the document has changed nothing in the books by then. -/
theorem books_of_looked {document : Document} {asked : Session}
    (h : s.looked? = some (document, asked)) : asked.books = s.books := by
  obtain ⟨name, -, -, -, -, hok⟩ := looked?_eq_some h
  have hbooks := books_snapshot name s.stopped
  rw [Step.after_of_ok hok] at hbooks
  exact hbooks

/-! ## Runs -/

/-- While no change of the text is heard, one revision of what one editor shows has one text, at
least whenever an update looks at it. -/
def Versioned (s₀ : Session) (events : List Event) : Prop :=
  ∀ before between rest, events = before ++ .pauseOver :: between ++ rest →
    ∀ document asked document' asked', (s₀.run before).looked? = some (document, asked) →
      (s₀.run (before ++ .pauseOver :: between)).looked? = some (document', asked') →
      (s₀.run (before ++ .pauseOver :: between)).editor? = (s₀.run before).editor? →
      document'.revision = document.revision →
      ¬ (s₀.run (before ++ [.pauseOver])).HearsText between → document'.text = document.text

/-- An update has looked at a document, and the scopes are still those of its text. -/
def Found (s₀ : Session) (events : List Event) : Prop :=
  ∃ before between document asked, events = before ++ .pauseOver :: between ∧
    (s₀.run before).looked? = some (document, asked) ∧
    (s₀.run events).editor? = (s₀.run before).editor? ∧
    ¬ (s₀.run (before ++ [.pauseOver])).HearsText between ∧
    (s₀.run events).tokenizedFor =
      some (document.revision, (s₀.run events).tokenizer?.map Tokenizer.serial) ∧
    (s₀.run events).masking.scopes.Full document

/-- An update has failed to find the scopes, and nothing since has made the session find them
anew. -/
def Spoiled (s₀ : Session) (events : List Event) : Prop :=
  ∃ before between document asked fault failed, events = before ++ .pauseOver :: between ∧
    (s₀.run before).looked? = some (document, asked) ∧
    ensureScopes document asked = .error fault failed ∧
    ∀ some rest, between = some ++ rest →
      (s₀.run (before ++ .pauseOver :: some)).stale = false

variable {s₀ : Session} {events : List Event} {e : Event}

/-- As long as the scopes are not stale again, an update that failed is the last word. -/
theorem Spoiled.concat (h : s₀.Spoiled events) (hfresh : (s₀.run (events ++ [e])).stale = false) :
    s₀.Spoiled (events ++ [e]) := by
  obtain ⟨before, between, document, asked, fault, failed, rfl, hlooked, hfailed, hstale⟩ := h
  refine ⟨before, between ++ [e], document, asked, fault, failed, by simp, hlooked, hfailed, ?_⟩
  intro first rest heq
  rcases List.eq_nil_or_concat rest with rfl | ⟨rest, e', rfl⟩
  · rw [List.append_nil] at heq
    rw [← heq]
    simpa using hfresh
  · rw [List.concat_eq_append, ← List.append_assoc] at heq
    obtain ⟨rfl, -⟩ := List.append_inj' heq rfl
    exact hstale first rest rfl

/-- Scopes that were found stay found while the books stay and no change of the text is heard. -/
theorem Found.concat (h : s₀.Found events)
    (hbooks : (s₀.run (events ++ [e])).books = (s₀.run events).books)
    (hheard : .textChanged ∉ (s₀.run events).heard e) : s₀.Found (events ++ [e]) := by
  obtain ⟨before, between, document, asked, rfl, hlooked, heditor, hnot, hkey, hfull⟩ := h
  refine ⟨before, between ++ [e], document, asked, by simp, hlooked,
    (congrArg Books.editor? hbooks).trans heditor, ?_, ?_, ?_⟩
  · rw [hearsText_concat, not_or, ← run_append]
    refine ⟨hnot, ?_⟩
    simpa using hheard
  · have htokenizer := congrArg Books.tokenizer? hbooks
    have hkey' := congrArg Books.tokenizedFor hbooks
    simp only [books] at htokenizer hkey'
    rw [htokenizer, hkey', hkey]
  · exact hfull.congr (congrArg Books.tokenizer? hbooks) (congrArg Books.states hbooks) rfl

/-- Scopes that are not stale are those of the text that an update has looked at, or an update has
failed to find others. -/
def Accounts (s₀ : Session) (events : List Event) : Prop :=
  (s₀.run events).stale = false → s₀.Found events ∨ s₀.Spoiled events

/-- An event that leaves the scopes alone. -/
theorem Accounts.concat (h : s₀.Accounts events)
    (hsteady : Steady (s₀.run events) (s₀.run (events ++ [e]))) :
    s₀.Accounts (events ++ [e]) := by
  intro hfresh
  rcases hsteady with hstale | hbooks
  · rw [hstale] at hfresh
    cases hfresh
  · have hfresh' : (s₀.run events).stale = false := (congrArg Books.stale hbooks).symm.trans hfresh
    rcases h hfresh' with hfound | hspoiled
    · refine Or.inl (hfound.concat hbooks fun hheard => ?_)
      have hstale := stale_of_heard hheard
      rw [run_append] at hfresh
      rw [run_cons, run_nil, hstale] at hfresh
      cases hfresh
    · exact Or.inr (hspoiled.concat hfresh)

/-- The end of a pause finds the scopes, or fails to, or leaves them alone. -/
theorem Accounts.pauseOver (h : s₀.Accounts events) : s₀.Accounts (events ++ [.pauseOver]) := by
  have hrun : s₀.run (events ++ [.pauseOver]) = Step.after fire (s₀.run events) := by
    rw [run_append]
    rfl
  have hfires := fires (s₀.run events)
  rw [← hrun] at hfires
  generalize hs' : s₀.run (events ++ [.pauseOver]) = s' at hfires
  cases hfires with
  | idle waiting => exact h.concat (hs' ▸ Or.inr rfl)
  | off => exact h.concat (hs' ▸ Or.inr (redecorates_clear _).books)
  | blank name => exact h.concat (hs' ▸ Or.inr (books_snapshot name _))
  | lost hlooked hfailed =>
    -- the update that was lost is the one that spoils the scopes
    intro hfresh
    refine Or.inr ⟨events, [], _, _, _, _, rfl, hlooked, hfailed, fun first rest heq => ?_⟩
    obtain ⟨rfl, -⟩ := List.append_eq_nil_iff.mp heq.symm
    exact hfresh
  | @masks document asked found hlooked hfound =>
    have hasked := books_of_looked hlooked
    have hmask := books_mask document found
    have hfinds := finds document asked
    rw [hfound] at hfinds
    cases hfinds with
    | kept hfresh hkey => exact h.concat (hs' ▸ Or.inr (hmask.trans hasked))
    | @found r hrebuild hok =>
      intro _
      subst hrebuild
      obtain ⟨-, hfull⟩ := LineScopes.full_rebuild rfl hok
      -- found anew just now, with nothing in between
      refine Or.inl ⟨events, [], document, asked, rfl, hlooked, ?_, ?_, ?_, ?_⟩
      · rw [hs']
        exact (congrArg Books.editor? hmask).trans (congrArg Books.editor? hasked)
      · rintro ⟨before, e, rest, heq, -⟩
        cases before <;> cases heq
      · rw [hs']
        have hkey := congrArg Books.tokenizedFor hmask
        have htokenizer := congrArg (fun b => b.tokenizer?.map Tokenizer.serial) hmask
        simp only [books] at hkey htokenizer
        rw [hkey, htokenizer]
        rfl
      · rw [hs']
        exact hfull.congr (congrArg Books.tokenizer? hmask) (congrArg Books.states hmask) rfl

/-- Scopes that count as fresh are accounted for after any run. -/
theorem accounts_run (hstale : s₀.stale = true) (events : List Event) : s₀.Accounts events := by
  -- by the last event: what the scopes are is decided by updates alone
  induction events using List.reverseRecOn with
  | nil =>
    intro hfresh
    rw [run_nil, hstale] at hfresh
    cases hfresh
  | append_singleton events e ih =>
    by_cases he : e = .pauseOver
    · subst he
      exact ih.pauseOver
    · have hsteady := steady_handle he (s₀.run events)
      refine ih.concat ?_
      rwa [run_append]

/-- In the beginning the scopes are stale. -/
theorem stale_of_start {settings : Json} {languages : String → Option String} {desk : Desk}
    (h : start settings languages desk = .ok s₀) : s₀.stale = true := by
  unfold start at h
  cases hsettings : Settings.normalize settings with
  | error fault => rw [hsettings] at h; cases h
  | ok members =>
    rw [hsettings] at h
    cases h
    rfl

/-- Whatever has happened to a session: when an update begins to mask a document, this is what the
session's editor shows, and the scopes are those of this document. There is no tokenizer and there
are no states, or the state of each line is that of a run of the tokenizer over the whole document;
this is so also where the scopes were not found anew, provided that a revision has one text while no
change of it is heard. The exception is a session in which an earlier update has failed because the
tokenizer failed with a fault that is not its own, and which nothing has made stale since. -/
theorem scopes_of_begun {settings : Json} {languages : String → Option String} {desk : Desk}
    (hstart : start settings languages desk = .ok s₀) (hversions : s₀.Versioned events)
    {document : Document} (hbegun : (s₀.run events).begun? = some (document, s')) :
    s'.host?.bind s'.desk.document? = some document ∧
      s'.masking.scopes.document = some document ∧
      (s'.masking.scopes.Full document ∨ s₀.Spoiled events) := by
  refine ⟨document_of_begun hbegun, ?_⟩
  obtain ⟨asked, hlooked, hensure⟩ := begun?_eq_some hbegun
  have hfinds := finds document asked
  have hasked := books_of_looked hlooked
  rw [hensure] at hfinds
  cases hfinds with
  | found hrebuild hok =>
    subst hrebuild
    obtain ⟨hdocument, hfull⟩ := LineScopes.full_rebuild rfl hok
    exact ⟨hdocument, Or.inl hfull⟩
  | kept hfresh hkey =>
    refine ⟨rfl, ?_⟩
    have hfresh' : (s₀.run events).stale = false := (congrArg Books.stale hasked).symm.trans hfresh
    refine (accounts_run (stale_of_start hstart) events hfresh').imp_left fun hfound => ?_
    obtain ⟨before, between, earlier, asked', rfl, hlooked', heditor, hnot, hkey', hfull⟩ := hfound
    -- the revision is the same, so the text is
    have hrevision : document.revision = earlier.revision := by
      have hsame := (congrArg Books.tokenizedFor hasked).symm.trans hkey
      simp only [books] at hsame
      rw [hkey'] at hsame
      exact (congrArg Prod.fst (Option.some.inj hsame)).symm
    have htext := hversions before between [] (by simp) earlier asked' document asked hlooked'
      hlooked heditor hrevision hnot
    exact hfull.congr (congrArg Books.tokenizer? hasked) (congrArg Books.states hasked) htext

/-! ## A run in which nothing fails, and one in which an update does -/

private theorem take_of_append {before rest : List Event} (h : events = before ++ rest) :
    before = events.take before.length := by
  rw [h, List.take_left]

/-- Where every revision has one text, all is well with versions. -/
theorem versioned_of_forall (text : Int → String)
    (h : ∀ n ≤ events.length, ∀ document ∈ (s₀.run (events.take n)).looked?.map Prod.fst,
      document.text = text document.revision) : s₀.Versioned events := by
  intro before between rest heq document asked document' asked' hlooked hlooked' _ hrevision _
  have htext {start rest : List Event} {document : Document} {asked : Session}
      (hstart : events = start ++ rest)
      (hlooked : (s₀.run start).looked? = some (document, asked)) :
      document.text = text document.revision := by
    have htake := take_of_append hstart
    have hle : start.length ≤ events.length := by rw [hstart, List.length_append]; omega
    refine h start.length hle document ?_
    rw [← htake, hlooked]
    rfl
  rw [htext heq hlooked', htext (heq.trans (List.append_assoc _ _ _)) hlooked, hrevision]

/-- Where every update has found the scopes, none is spoiled. -/
theorem not_spoiled_of_forall
    (h : ∀ n ≤ events.length, (s₀.run (events.take n)).looked?.isSome →
      (s₀.run (events.take n)).begun?.isSome) : ¬ s₀.Spoiled events := by
  rintro ⟨before, between, document, asked, fault, failed, heq, hlooked, hfailed, -⟩
  have hbefore := take_of_append heq
  have hle : before.length ≤ events.length := by rw [heq, List.length_append]; omega
  have hbegun := h before.length hle (by rw [← hbefore, hlooked]; rfl)
  obtain ⟨⟨document', s'⟩, hbegun⟩ := Option.isSome_iff_exists.mp hbegun
  rw [← hbefore] at hbegun
  obtain ⟨asked', hlooked', hfound⟩ := begun?_eq_some hbegun
  rw [hlooked] at hlooked'
  cases hlooked'
  rw [hfailed] at hfound
  cases hfound

/-- A grammar whose blocks end where a mark comes as often as their head says. -/
def counting : Json :=
  .obj [("scopeName", .str "s"),
    ("patterns", .arr [.obj [("begin", .str "b(\\d+)"), ("end", .str "c\x7b\\1\x7d"),
      ("contentName", .str "in"), ("patterns", .arr [.obj [("include", .str "$self")]])]])]

def plainDocument : Document := { text := "o\ny", languageId := "l", revision := 1 }

/-- A version with a block that no grammar of this kind can find the end of. -/
def endlessDocument : Document := { text := "b1\nb99999999999", languageId := "l", revision := 2 }

def plainDesk : Desk := { editors := [("e", { content := .given (some plainDocument) [] .null })] }

/-- The session turns to an editor, gets a tokenizer and masks the document. -/
def firstUpdate (t : Tokenizer) : List Event :=
  [.turnTo (some "e"), .delivered 1 (.found t), .polled, .pauseOver]

/-- The editor shows another version for one update. -/
def thereAndBack : List Event :=
  [.displayed "e" (some endlessDocument), .told .selectionChanged, .pauseOver,
    .displayed "e" (some plainDocument), .told .selectionChanged]

/-- The documents that updates look at in a run are the two versions. -/
def ShowsVersions (s₀ : Session) (events : List Event) : Prop :=
  ∀ n ≤ events.length, ∀ document ∈ (s₀.run (events.take n)).looked?.map Prod.fst,
    document = plainDocument ∨ document = endlessDocument

instance (s₀ : Session) (events : List Event) : Decidable (s₀.ShowsVersions events) :=
  inferInstanceAs (Decidable (∀ n ≤ events.length, ∀ document ∈ _, _ ∨ _))

/-- A run that shows two versions with two revisions is one in which a revision has one text. -/
theorem ShowsVersions.versioned (h : s₀.ShowsVersions events) : s₀.Versioned events := by
  refine versioned_of_forall (fun r => if r = 1 then plainDocument.text else endlessDocument.text) ?_
  intro n hn document hdocument
  rcases h n hn document hdocument with rfl | rfl
  · rfl
  · rfl

/-- A grammar that was read, and a session that was started, of which a test holds. -/
theorem exists_grammar_and_start (raw settings : Json) (languages : String → Option String)
    (desk : Desk) (p : Grammar → Session → Bool)
    (h : ((Grammar.ofJson Grammar.anonymous raw).toOption.any fun g =>
      (start settings languages desk).toOption.any (p g)) = true) :
    ∃ g s₀, Grammar.ofJson Grammar.anonymous raw = .ok g ∧
      start settings languages desk = .ok s₀ ∧ p g s₀ = true := by
  cases hg : Grammar.ofJson Grammar.anonymous raw with
  | error fault => rw [hg] at h; cases h
  | ok g =>
    rw [hg] at h
    obtain ⟨s₀, hstart, hp⟩ := exists_start (p g) h
    exact ⟨g, s₀, rfl, hstart, hp⟩

/-- A selection changes, and the scopes that were found for the text are used once more. -/
theorem plain_scopes_kept : ∃ g s₀ s',
    Grammar.ofJson Grammar.anonymous counting = .ok g ∧
      start (.obj []) (fun _ => some "s") plainDesk = .ok s₀ ∧
      let events := firstUpdate (g.toTokenizer 1) ++ [.told .selectionChanged]
      s₀.Versioned events ∧ (s₀.run events).begun? = some (plainDocument, s') ∧
        s'.masking.scopes.Full plainDocument := by
  obtain ⟨g, s₀, hg, hstart, hready⟩ := exists_grammar_and_start counting (.obj [])
    (fun _ => some "s") plainDesk (fun g s₀ =>
      let events := firstUpdate (g.toTokenizer 1) ++ [.told .selectionChanged]
      decide (s₀.ShowsVersions events ∧
        (∀ n ≤ events.length, (s₀.run (events.take n)).looked?.isSome →
          (s₀.run (events.take n)).begun?.isSome) ∧
        (s₀.run events).begun?.map Prod.fst = some plainDocument))
    (by decide +kernel)
  obtain ⟨hversions, hbegun, hdocument⟩ := of_decide_eq_true hready
  obtain ⟨⟨document, s'⟩, hbegun', rfl⟩ := Option.map_eq_some_iff.mp hdocument
  obtain ⟨-, -, hfull⟩ := scopes_of_begun hstart hversions.versioned hbegun'
  exact ⟨g, s₀, s', hg, hstart, hversions.versioned, hbegun',
    hfull.resolve_right (not_spoiled_of_forall hbegun)⟩

/-- After an update that has failed halfway, the next one masks a document whose scopes are not
found: there is a state for one of its two lines. -/
theorem scopes_spoiled_by_failure : ∃ g s₀ s',
    Grammar.ofJson Grammar.anonymous counting = .ok g ∧
      start (.obj []) (fun _ => some "s") plainDesk = .ok s₀ ∧
      let events := firstUpdate (g.toTokenizer 1) ++ thereAndBack
      s₀.Versioned events ∧ (s₀.run events).begun? = some (plainDocument, s') ∧
        ¬ s'.masking.scopes.Full plainDocument := by
  obtain ⟨g, s₀, hg, hstart, hready⟩ := exists_grammar_and_start counting (.obj [])
    (fun _ => some "s") plainDesk (fun g s₀ =>
      let events := firstUpdate (g.toTokenizer 1) ++ thereAndBack
      decide (s₀.ShowsVersions events ∧ (s₀.run events).begun?.map
        (fun seen => (seen.1, seen.2.tokenizer?.isSome, seen.2.masking.scopes.states.length)) =
          some (plainDocument, true, 1)))
    (by decide +kernel)
  obtain ⟨hversions, hscopes⟩ := of_decide_eq_true hready
  obtain ⟨⟨document, s'⟩, hbegun, heq⟩ := Option.map_eq_some_iff.mp hscopes
  obtain ⟨rfl, htokenizer, hlength⟩ : document = plainDocument ∧ s'.tokenizer?.isSome = true ∧
      s'.masking.scopes.states.length = 1 := by simpa using heq
  refine ⟨g, s₀, s', hg, hstart, hversions.versioned, hbegun, ?_⟩
  rintro (⟨hnone, -⟩ | ⟨t, results, last, -, hruns, hstates⟩)
  · rw [tokenizer?, hnone] at htokenizer
    cases htokenizer
  · have hlines : plainDocument.lines.length = 2 := by decide
    have hresults := hruns.length_eq
    rw [hstates, List.length_map] at hlength
    omega

end Session

end Conceal
