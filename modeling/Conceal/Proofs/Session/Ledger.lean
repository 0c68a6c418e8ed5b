import Conceal.Proofs.Session.Passes

/-!
What a session knows about its requests for grammars, apart from everything else: how many there
were, which are pending, and the tokenizer. An update can drop the tokenizer, deliveries are noted
and taken up, and any other event only makes requests. Main statement: `records_handle`.
-/

namespace Conceal

/-- The tokenizer that a delivery brings. -/
def Delivery.tokenizer? : Delivery → Option Tokenizer
  | .found t => some t
  | .missing | .failed => none

/-- What a session knows about its requests, and its tokenizer. -/
structure Ledger where
  requests : Nat
  scopeName : String
  pending : List GrammarRequest
  polling : Bool
  tokenizer? : Option Tokenizer

/-- A request for the grammar of a scope name; for the empty one there is none. -/
def Ledger.ask (l : Ledger) (scopeName : String) : Ledger :=
  if scopeName = "" then { l with requests := l.requests + 1, scopeName, tokenizer? := none }
  else
    { l with
      requests := l.requests + 1
      scopeName
      pending := l.pending ++ [{ number := l.requests + 1, scopeName }]
      polling := true }

namespace Session

/-- The ledger of a session. -/
def ledger (s : Session) : Ledger :=
  ⟨s.requests, s.scopeName, s.pending, s.polling, s.tokenizer?⟩

/-- The later session has the same ledger. -/
def Still (s s' : Session) : Prop := s'.ledger = s.ledger

instance : Trans Still Still Still := ⟨fun h h' => Eq.trans h' h⟩

/-- What leaves the scopes alone leaves the tokenizer alone. -/
theorem still_onMasking {α : Type} {act : Step Masking α} {s : Session}
    (h : (Step.after act s.masking).scopes = s.masking.scopes) :
    Still s (Step.after (onMasking act) s) := by
  rw [onMasking, Step.after_on]
  exact congrArg (fun scopes : LineScopes =>
    (⟨s.requests, s.scopeName, s.pending, s.polling, scopes.tokenizer⟩ : Ledger)) h

/-- Decorations are nothing to the ledger. -/
theorem still_onDecorations {α : Type} (act : Step Decorations α) :
    Step.Obeys Still (onMasking (Masking.onDecorations act)) := fun s => by
  refine still_onMasking ?_
  rw [Masking.onDecorations, Step.after_on]

/-! ## Requests -/

/-- The later session has made requests, and nothing else has happened to its ledger. -/
def Asks (s s' : Session) : Prop :=
  ∃ scopeNames : List String, s'.ledger = scopeNames.foldl Ledger.ask s.ledger

theorem asks_of_eq {s s' : Session} (h : s'.ledger = s.ledger) : Asks s s' := ⟨[], h⟩

instance : Std.Refl Asks := ⟨fun _ => asks_of_eq rfl⟩

instance : Trans Asks Asks Asks where
  trans := by
    rintro s s' s'' ⟨names, h⟩ ⟨names', h'⟩
    exact ⟨names ++ names', by rw [h', h, List.foldl_append]⟩

theorem asks_modify {f : Session → Session} (h : ∀ s, (f s).ledger = s.ledger) :
    Step.Obeys Asks (modify f : Step Session PUnit) := fun s => asks_of_eq (h s)

theorem asks_onDecorations {α : Type} (act : Step Decorations α) :
    Step.Obeys Asks (onMasking (Masking.onDecorations act)) := fun s =>
  asks_of_eq (still_onDecorations act s)

/-- A request asks for the scope name of the document's language. -/
theorem ledger_requestGrammar (s : Session) :
    (Step.after requestGrammar s).ledger = s.ledger.ask s.wanted := by
  have hinquired : s.inquired.ledger = { s.ledger with requests := s.requests + 1 } := by
    unfold inquired
    split
    · rw [after_onDesk]
      rfl
    · rfl
  obtain ⟨hrequests, -, hpending, hpolling, htokenizer⟩ := Ledger.mk.inj hinquired
  rw [Step.after_of_ok (requestGrammar_eq s), Ledger.ask]
  split
  · show (⟨s.inquired.requests, s.wanted, s.inquired.pending, s.inquired.polling, none⟩ :
      Ledger) = _
    rw [hrequests, hpending, hpolling]
    rfl
  · show (⟨s.inquired.requests, s.wanted,
      s.inquired.pending ++ [⟨s.inquired.requests, s.wanted, none⟩], true,
      s.inquired.tokenizer?⟩ : Ledger) = _
    rw [hrequests, hpending, htokenizer]
    rfl

theorem asks_requestGrammar : Step.Obeys Asks requestGrammar := fun s =>
  ⟨[s.wanted], ledger_requestGrammar s⟩

theorem hearing_asks : Hearing Asks where
  request := asks_requestGrammar
  schedule _ := asks_of_eq rfl
  textChanged _ := asks_of_eq rfl

theorem ledger_release (name : String) (s : Session) : (s.release name).ledger = s.ledger := by
  unfold release
  split <;> rfl

/-- A turn to another editor asks for its grammar, once at most. -/
theorem asks_setEditor (editor : Option String) : Step.Obeys Asks (setEditor editor) := by
  have hrest (document : Option Document) : Step.Obeys Asks (do
      modify fun s => { s with
        masking.scopes := s.masking.scopes.setDocument document
        stale := true }
      Step.forSome editor fun name => modify (connect name)
      requestGrammar
      modify schedule) := by
    refine Step.Obeys.bind (asks_modify fun _ => rfl) fun _ => ?_
    refine Step.Obeys.bind (Step.obeys_forSome fun _ => asks_modify fun _ => rfl) fun _ => ?_
    exact hearing_asks.languageMayChange
  unfold setEditor
  refine Step.obeys_get.bind fun s => ?_
  split
  · exact Step.obeys_pure _
  · refine (Step.obeys_forSome fun old => asks_modify (ledger_release old)).bind fun _ => ?_
    refine (asks_onDecorations _).bind fun _ => ?_
    cases editor with
    | none => exact hrest none
    | some name => exact (asks_onDecorations _).bind hrest

theorem asks_setSettings (settings : Json) : Step.Obeys Asks (setSettings settings) := by
  unfold setSettings
  refine (Step.obeys_ofExcept _).bind fun _ => ?_
  refine Step.Obeys.bind (asks_modify fun _ => rfl) fun _ => ?_
  exact (asks_onDecorations _).bind fun _ => asks_modify fun _ => rfl

/-! ## Updates -/

/-- The tokenizer fails with the document of the session's editor. -/
def TokenizerFails (s : Session) : Prop :=
  ∃ name document, s.editor? = some name ∧ s.desk.document? name = some document ∧
    (s.masking.scopes.setDocument (some document)).rebuild.notice = some .grammarDropped

/-- Finding the scopes leaves the tokenizer, or drops it with a notice. -/
theorem tokenizer_rebuild (l : LineScopes) : l.rebuild.scopes.tokenizer = l.tokenizer ∨
    l.rebuild.notice = some .grammarDropped ∧ l.rebuild.scopes.tokenizer = none := by
  unfold LineScopes.rebuild
  split
  · split
    · exact Or.inl rfl
    · split
      · exact Or.inr ⟨rfl, rfl⟩
      · exact Or.inl rfl
  · exact Or.inl rfl

/-- Finding the scopes can lose the tokenizer, and only if it fails. -/
theorem ledger_ensureScopes (document : Document) (s : Session) :
    (Step.after (ensureScopes document) s).ledger = s.ledger ∨
      (s.masking.scopes.setDocument (some document)).rebuild.notice = some .grammarDropped ∧
        (Step.after (ensureScopes document) s).ledger = { s.ledger with tokenizer? := none } := by
  unfold ensureScopes
  rw [Step.after_bind_of_ok (Step.get_apply s)]
  dsimp only
  split
  · exact Or.inl rfl
  · rw [Step.after_bind_of_ok (Step.set_apply s _)]
    have htokenizer := tokenizer_rebuild (s.masking.scopes.setDocument (some document))
    generalize (s.masking.scopes.setDocument (some document)).rebuild = r at htokenizer ⊢
    have hledger : (Step.after (Step.forSome r.fault throw >>= fun _ => modify fun s : Session =>
        { s with stale := false, tokenizedFor := some (s.scopesKey document) })
        { s with
          masking.scopes := r.scopes
          masking.notices := s.masking.notices ++ r.notice.toList }).ledger
        = { s.ledger with tokenizer? := r.scopes.tokenizer } := by
      cases r.fault <;> rfl
    rcases htokenizer with hsame | ⟨hnotice, hnone⟩
    · rw [hsame] at hledger
      exact Or.inl hledger
    · rw [hnone] at hledger
      exact Or.inr ⟨hnotice, hledger⟩

/-- Looking at a document leaves the ledger and the scopes alone. -/
theorem ledger_of_looked {s asked : Session} {document : Document}
    (h : s.looked? = some (document, asked)) :
    asked.ledger = s.ledger ∧ asked.masking.scopes = s.masking.scopes := by
  obtain ⟨name, -, -, -, -, hok⟩ := looked?_eq_some h
  rw [← Step.after_of_ok hok, after_onDesk]
  exact ⟨rfl, rfl⟩

/-- Masking leaves the ledger alone. -/
theorem still_mask (document : Document) : Step.Obeys Still (mask document) := by
  intro s
  unfold mask
  rw [Step.after_bind_of_ok (Step.get_apply s)]
  refine Step.after_bind_rel (still_onMasking ?_) fun applied s' _ => rfl
  exact (Masking.works_update (works_applyRules document s.caretStyle s.rules) s.masking).scopes

/-- The end of the pause can lose the tokenizer, and only if it fails. -/
theorem ledger_fire (s : Session) :
    (Step.after fire s).ledger = s.ledger ∨
      s.TokenizerFails ∧ (Step.after fire s).ledger = { s.ledger with tokenizer? := none } := by
  -- the scopes are the only part of an update that can drop the tokenizer
  have hensured {document : Document} {asked : Session}
      (hlooked : s.looked? = some (document, asked)) :
      (Step.after (ensureScopes document) asked).ledger = s.ledger ∨ s.TokenizerFails ∧
        (Step.after (ensureScopes document) asked).ledger =
          { s.ledger with tokenizer? := none } := by
    obtain ⟨hledger, hscopes⟩ := ledger_of_looked hlooked
    obtain ⟨name, hhost, -, -, hdocument, -⟩ := looked?_eq_some hlooked
    have hname := (host?_eq_some.mp hhost).1
    rw [← hledger]
    exact (ledger_ensureScopes document asked).imp_right fun ⟨hnotice, hdropped⟩ =>
      ⟨⟨name, document, hname, hdocument, hscopes ▸ hnotice⟩, hdropped⟩
  have hfires := fires s
  generalize Step.after fire s = s' at hfires ⊢
  cases hfires with
  | idle waiting => exact Or.inl rfl
  | off => exact Or.inl (still_onDecorations _ s.stopped)
  | blank name =>
    rw [after_onDesk]
    exact Or.inl rfl
  | lost hlooked hfailed =>
    have hlost := hensured hlooked
    rwa [Step.after_of_error hfailed] at hlost
  | @masks document _ found hlooked hfound =>
    have hmasked := hensured hlooked
    have hstill : (Step.after (mask document) found).ledger = found.ledger :=
      still_mask document found
    rw [Step.after_of_ok hfound] at hmasked
    rwa [hstill]

/-! ## Events -/

/-- What an event makes of a ledger. -/
inductive Records (s : Session) : Event → Ledger → Prop
  | asks {e : Event} (scopeNames : List String) :
      Records s e (scopeNames.foldl Ledger.ask s.ledger)
  | drops (h : s.TokenizerFails) : Records s .pauseOver { s.ledger with tokenizer? := none }
  | notes (number : Nat) (d : Delivery) :
      Records s (.delivered number d) (deliver number d s).ledger
  | takesUp : Records s .polled s.poll.ledger

/-- Every event but the end makes requests, drops the tokenizer, notes a delivery or takes up
deliveries. -/
theorem records_handle {e : Event} (h : e ≠ .closed) (s : Session) :
    Records s e (Step.after (handle e) s).ledger := by
  have hasks {act : Step Session Unit} (hact : Step.Obeys Asks act) :
      Records s e (Step.after act s).ledger := by
    obtain ⟨scopeNames, hledger⟩ := hact s
    rw [hledger]
    exact .asks scopeNames
  cases e with
  | closed => exact absurd rfl h
  | pauseOver =>
    rcases ledger_fire s with hsame | ⟨hfails, hdropped⟩
    · rw [handle, hsame]
      exact .asks []
    · rw [handle, hdropped]
      exact .drops hfails
  | delivered number d => exact .notes number d
  | polled => exact .takesUp
  | turnTo editor => exact hasks (asks_setEditor editor)
  | told signal => exact hasks (hearing_asks.receive signal)
  | settingsChanged settings => exact hasks (asks_setSettings settings)
  | sent name signal => exact hasks (hearing_asks.hear name signal)
  | worked name act =>
    exact hasks ((hearing_asks.edit name (fun _ _ => asks_of_eq rfl) _).bind fun _ =>
      Step.obeys_pure _)
  | _ => exact hasks (asks_modify fun _ => rfl)

end Session

end Conceal
