import Conceal.Proofs.Session.Heard
import Conceal.Proofs.Session.History
import Conceal.Proofs.Session.Requests

/-!
The grammar that an update judges scopes with. The scope name of a session is that of the language
that its editor's document had when the last request for a grammar was made, and once that request is
answered the tokenizer is one for this scope name. Until then it is still the one from before,
whatever that was for. Main statement: `tokenizer_of_begun`.
-/

namespace Conceal.Session

variable {s s' s₀ : Session} {events : List Event} {e : Event}

/-! ## Scope names -/

/-- No request has been made, and the editor is the same. -/
structure Unasked (s s' : Session) : Prop where
  requests : s'.requests = s.requests
  scopeName : s'.scopeName = s.scopeName
  editor : s'.editor? = s.editor?

theorem Unasked.refl (s : Session) : Unasked s s := ⟨rfl, rfl, rfl⟩

theorem Unasked.trans {s'' : Session} (h : Unasked s s') (h' : Unasked s' s'') : Unasked s s'' :=
  ⟨h'.requests.trans h.requests, h'.scopeName.trans h.scopeName, h'.editor.trans h.editor⟩

instance : Std.Refl Unasked := ⟨Unasked.refl⟩

instance : Trans Unasked Unasked Unasked := ⟨Unasked.trans⟩

/-- The scope name is that of the document's language, or is as old as the last request. -/
def Resolves (s s' : Session) : Prop := Unasked s s' ∨ s'.scopeName = s'.wanted

/-- The same scope name is wanted, and the session's is this one or as old as the last request. -/
structure Reacts (s s' : Session) : Prop where
  wanted : s'.wanted = s.wanted
  resolves : Resolves s s'

instance : Std.Refl Reacts := ⟨fun s => ⟨rfl, Or.inl (Unasked.refl s)⟩⟩

/-- Reactions, one after the other, are a reaction. -/
theorem Reacts.trans {s'' : Session} (h : Reacts s s') (h' : Reacts s' s'') : Reacts s s'' := by
  refine ⟨h'.wanted.trans h.wanted, ?_⟩
  rcases h'.resolves with hunasked | hresolved
  · rcases h.resolves with hunasked' | hresolved'
    · exact Or.inl (hunasked'.trans hunasked)
    · exact Or.inr (hunasked.scopeName.trans (hresolved'.trans h'.wanted.symm))
  · exact Or.inr hresolved

instance : Trans Reacts Reacts Reacts := ⟨Reacts.trans⟩

/-- The scope name that is wanted depends on the document of the host alone. -/
theorem wanted_of_minds (h : Minds s s') (hlanguages : s'.languages = s.languages) :
    s'.wanted = s.wanted := by
  have hdocument : s'.desk.document? = s.desk.document? := funext h.desk.document?_eq
  unfold wanted
  rw [h.host?_eq, hdocument, hlanguages]

/-- A request resolves the scope name. -/
theorem scopeName_requestGrammar (s : Session) :
    (Step.after requestGrammar s).wanted = s.wanted ∧
      (Step.after requestGrammar s).scopeName = s.wanted := by
  have hlanguages : s.inquired.languages = s.languages := by
    unfold inquired
    split
    · rw [after_onDesk]
    · rfl
  refine ⟨wanted_of_minds (minds_requestGrammar s) ?_, ?_⟩
  · rw [Step.after_of_ok (requestGrammar_eq s)]
    split <;> exact hlanguages
  · rw [Step.after_of_ok (requestGrammar_eq s)]
    split <;> rfl

/-- Whatever a signal sets off, it asks for the grammar that is wanted or for none. -/
theorem hearing_reacts : Hearing Reacts where
  request s := by
    obtain ⟨hwanted, hname⟩ := scopeName_requestGrammar s
    exact ⟨hwanted, Or.inr (hname.trans hwanted.symm)⟩
  schedule s := ⟨rfl, Or.inl ⟨rfl, rfl, rfl⟩⟩
  textChanged s := ⟨rfl, Or.inl ⟨rfl, rfl, rfl⟩⟩

theorem unasked_poll (s : Session) : Unasked s s.poll :=
  rel_poll (fun _ _ _ _ => ⟨rfl, rfl, rfl⟩) (fun _ _ _ => ⟨rfl, rfl, rfl⟩) s

/-- An update asks for no grammar. -/
theorem unasked_fire (s : Session) : Unasked s (Step.after fire s) := by
  have heditor := (minds_fire s).editor
  rcases ledger_fire s with hledger | ⟨-, hledger⟩
  · exact ⟨congrArg Ledger.requests hledger, congrArg Ledger.scopeName hledger, heditor⟩
  · exact ⟨congrArg Ledger.requests hledger, congrArg Ledger.scopeName hledger, heditor⟩

theorem Redecorates.unasked (h : Redecorates s s') : Unasked s s' := by
  refine ⟨?_, ?_, h.editor⟩
  · rw [h.rest]
  · rw [h.rest]

/-- Other settings ask for no grammar. -/
theorem unasked_setSettings (settings : Json) : Step.Obeys Unasked (setSettings settings) := by
  unfold setSettings
  refine (Step.obeys_ofExcept _).bind fun _ => ?_
  refine Step.Obeys.bind (Step.obeys_modify fun _ => ⟨rfl, rfl, rfl⟩) fun _ => ?_
  exact Step.Obeys.bind (fun s => (redecorates_clear s).unasked)
    fun _ => Step.obeys_modify fun _ => ⟨rfl, rfl, rfl⟩

theorem unasked_shutDown : Step.Obeys Unasked shutDown := by
  intro s
  have hrest : Unasked s s.atRest := ⟨rfl, rfl, rfl⟩
  exact hrest.trans (redecorates_shutDown s).unasked

/-- An editor that is taken up has its scope name resolved. -/
theorem scopeName_takeUp (editor : Option String) (s : Session) :
    (Step.after (takeUp editor) s).scopeName = (Step.after (takeUp editor) s).wanted := by
  have hlanguage (s : Session) :
      (Step.after languageMayChange s).scopeName = (Step.after languageMayChange s).wanted := by
    obtain ⟨hwanted, hname⟩ := scopeName_requestGrammar s
    unfold languageMayChange
    rw [Step.after_bind_of_ok (requestGrammar_eq s), ← Step.after_of_ok (requestGrammar_eq s)]
    exact hname.trans hwanted.symm
  have hsettleIn (document : Option Document) (s : Session) :
      (Step.after (settleIn editor document) s).scopeName =
        (Step.after (settleIn editor document) s).wanted := by
    unfold settleIn
    rw [Step.after_bind_of_ok (Step.modify_apply s _)]
    cases editor with
    | none => exact hlanguage _
    | some name => exact hlanguage _
  cases editor with
  | none => exact hsettleIn none s
  | some name =>
    unfold takeUp
    rw [Step.after_bind_of_ok (onDesk_snapshot_eq name s)]
    exact hsettleIn _ _

/-- A turn to another editor asks for the grammar of its document. -/
theorem resolves_setEditor (editor : Option String) (s : Session) :
    Resolves s (Step.after (setEditor editor) s) := by
  by_cases hne : editor = s.editor?
  · rw [setEditor_of_eq hne]
    exact Or.inl (Unasked.refl s)
  · rcases after_setEditor hne with ⟨d, -, hafter⟩ | ⟨-, -, -, -, hredecorates⟩
    · rw [hafter]
      exact Or.inr (scopeName_takeUp editor _)
    · exact Or.inl hredecorates.unasked

/-- Every event that requests a grammar resolves the scope name. -/
theorem resolves_handle (e : Event) (s : Session) : Resolves s (Step.after (handle e) s) := by
  cases e with
  | turnTo editor => exact resolves_setEditor editor s
  | told signal => exact (hearing_reacts.receive signal s).resolves
  | settingsChanged settings => exact Or.inl (unasked_setSettings settings s)
  | pauseOver => exact Or.inl (unasked_fire s)
  | polled => exact Or.inl (unasked_poll s)
  | closed => exact Or.inl (unasked_shutDown s)
  | sent name signal => exact (hearing_reacts.hear name signal s).resolves
  | worked name act =>
    rcases worked_cases name act s with ⟨-, hsame⟩ | ⟨content, hafter⟩
    · rw [hsame]
      exact Or.inl (Unasked.refl s)
    · -- the document may be another one before the first signal is heard
      rw [hafter]
      have hhear : Step.Obeys Reacts ((s.heard (.worked name act)).forM receive) :=
        Step.obeys_forM hearing_reacts.receive
      have hchange : Unasked s (s.changeEditor name fun e => { e with content }) := ⟨rfl, rfl, rfl⟩
      rcases (hhear (s.changeEditor name fun e => { e with content })).resolves with
        hunasked | hresolved
      · exact Or.inl (hchange.trans hunasked)
      · exact Or.inr hresolved
  | _ => exact Or.inl ⟨rfl, rfl, rfl⟩

/-- The scope name of a session is that of the language of the document that its editor showed when
the last request was made. -/
def Resolved (s₀ : Session) (events : List Event) : Prop :=
  ∃ before rest, events = before ++ rest ∧
    (s₀.run before).requests = (s₀.run events).requests ∧
    (s₀.run before).editor? = (s₀.run events).editor? ∧
    (s₀.run events).scopeName = (s₀.run before).wanted

/-- The scope name is always that of a document which the editor showed with the last request. -/
theorem resolved_run (h : s₀.scopeName = s₀.wanted) (events : List Event) :
    s₀.Resolved events := by
  induction events using List.reverseRecOn with
  | nil => exact ⟨[], [], rfl, rfl, rfl, h⟩
  | append_singleton events e ih =>
    have hresolves := resolves_handle e (s₀.run events)
    rw [← run_concat] at hresolves
    rcases hresolves with hunasked | hresolved
    · obtain ⟨before, rest, rfl, hrequests, heditor, hname⟩ := ih
      exact ⟨before, rest ++ [e], by simp, hrequests.trans hunasked.requests.symm,
        heditor.trans hunasked.editor.symm, hunasked.scopeName.trans hname⟩
    · exact ⟨events ++ [e], [], by simp, rfl, rfl, hresolved⟩

/-! ## Tokenizers -/

/-- The last request is pending. -/
def Awaits (s : Session) : Prop := ∃ r ∈ s.pending, r.number = s.requests

/-- The last request is not answered: it is pending, or was so when the session was closed. -/
def Unanswered (s₀ : Session) (events : List Event) : Prop :=
  (s₀.run events).Awaits ∨ ∃ before rest, events = before ++ .closed :: rest ∧
    (s₀.run before).Awaits ∧ (s₀.run before).requests = (s₀.run events).requests

/-- The tokenizer was there at some time when it was for the scope name. -/
def Suited (s₀ : Session) (events : List Event) (t : Tokenizer) : Prop :=
  ∃ before rest, events = before ++ rest ∧ (s₀.run before).tokenizer? = some t ∧
    t.scopeName = (s₀.run before).scopeName

/-- A grammar that is delivered declares the scope name that it was asked for. -/
def Declares (s : Session) : Event → Prop
  | .delivered number (.found t) =>
    ∀ r ∈ s.pending, r.number = number → t.scopeName = r.scopeName
  | _ => True

/-- Every grammar that is delivered declares the scope name that it was asked for. -/
def Honest (s₀ : Session) (events : List Event) : Prop :=
  ∀ before e rest, events = before ++ e :: rest → (s₀.run before).Declares e

/-- The tokenizer was once for the scope name, and is so unless the last request is not answered;
what was delivered for pending requests is for the scope names that they ask for. -/
structure Matched (s₀ : Session) (events : List Event) : Prop where
  counted : (s₀.run events).ledger.Counted
  delivered : ∀ r ∈ (s₀.run events).pending, ∀ t, r.delivery = some (.found t) →
    t.scopeName = r.scopeName
  tokenizer : ∀ t, (s₀.run events).tokenizer? = some t →
    s₀.Suited events t ∧ (t.scopeName = (s₀.run events).scopeName ∨ s₀.Unanswered events)

/-- A run that is honest was so before its last event. -/
theorem Honest.of_concat (h : s₀.Honest (events ++ [e])) : s₀.Honest events := by
  intro before e' rest heq
  exact h before e' (rest ++ [e]) (by rw [heq]; simp)

/-- A tokenizer that was suited once stays one that was. -/
theorem Suited.concat {t : Tokenizer} (h : s₀.Suited events t) : s₀.Suited (events ++ [e]) t := by
  obtain ⟨before, rest, rfl, hthere, hname⟩ := h
  exact ⟨before, rest ++ [e], by simp, hthere, hname⟩

/-- An event that leaves the last request as it is. -/
theorem Unanswered.concat (h : s₀.Unanswered events)
    (hrequests : (s₀.run (events ++ [e])).requests = (s₀.run events).requests)
    (hawaits : (s₀.run events).Awaits → s₀.Unanswered (events ++ [e])) :
    s₀.Unanswered (events ++ [e]) := by
  rcases h with hpending | ⟨before, rest, rfl, hpending, hlast⟩
  · exact hawaits hpending
  · exact Or.inr ⟨before, rest ++ [e], by simp, hpending, hlast.trans hrequests.symm⟩

/-- An event that leaves the last request and the tokenizer as they are. -/
theorem Matched.tokenizer_concat (h : s₀.Matched events)
    (hrequests : (s₀.run (events ++ [e])).requests = (s₀.run events).requests)
    (hscopeName : (s₀.run (events ++ [e])).scopeName = (s₀.run events).scopeName)
    (hawaits : (s₀.run events).Awaits → s₀.Unanswered (events ++ [e])) {t : Tokenizer}
    (ht : (s₀.run events).tokenizer? = some t) :
    s₀.Suited (events ++ [e]) t ∧
      (t.scopeName = (s₀.run (events ++ [e])).scopeName ∨ s₀.Unanswered (events ++ [e])) := by
  obtain ⟨hsuited, hmatches⟩ := h.tokenizer t ht
  refine ⟨hsuited.concat, ?_⟩
  rw [hscopeName]
  exact hmatches.imp_right fun hopen => hopen.concat hrequests hawaits

/-- The end forgets what is pending, and nothing else in the ledger. -/
theorem ledger_shutDown (s : Session) :
    (Step.after shutDown s).ledger = { s.ledger with pending := [], polling := false } := by
  rw [(redecorates_shutDown s).rest]
  rfl

/-- The end leaves the last request without an answer, if it was pending. -/
theorem Matched.closed (h : s₀.Matched events) : s₀.Matched (events ++ [.closed]) := by
  have hledger := ledger_shutDown (s₀.run events)
  rw [← show s₀.run (events ++ [.closed]) = Step.after shutDown (s₀.run events) from
    run_concat s₀ events .closed] at hledger
  have hpending : (s₀.run (events ++ [.closed])).pending = [] := congrArg Ledger.pending hledger
  have hrequests : (s₀.run (events ++ [.closed])).requests = (s₀.run events).requests :=
    congrArg Ledger.requests hledger
  refine ⟨?_, ?_, fun t ht => ?_⟩
  · rw [hledger]
    exact h.counted.of_sublist rfl rfl (List.nil_sublist _) fun hne => absurd rfl hne
  · rw [hpending]
    intro r hr
    cases hr
  · have ht' : (s₀.run events).tokenizer? = some t :=
      (congrArg Ledger.tokenizer? hledger).symm.trans ht
    refine h.tokenizer_concat hrequests (congrArg Ledger.scopeName hledger) (fun hawaits => ?_) ht'
    exact Or.inr ⟨events, [], rfl, hawaits, hrequests.symm⟩

/-- New requests: the last of them is pending, or there is no tokenizer. -/
theorem Matched.asks (h : s₀.Matched events) {scopeNames : List String}
    (hledger : (s₀.run (events ++ [e])).ledger =
      scopeNames.foldl Ledger.ask (s₀.run events).ledger) : s₀.Matched (events ++ [e]) := by
  have hpending : (s₀.run (events ++ [e])).pending =
      (scopeNames.foldl Ledger.ask (s₀.run events).ledger).pending :=
    congrArg Ledger.pending hledger
  refine ⟨hledger ▸ h.counted.asks scopeNames, fun r hr t hdelivery => ?_, fun t ht => ?_⟩
  · rw [hpending] at hr
    rcases Ledger.mem_pending_asks hr with hold | hnone
    · exact h.delivered r hold t hdelivery
    · rw [hnone] at hdelivery
      cases hdelivery
  · have ht' : (scopeNames.foldl Ledger.ask (s₀.run events).ledger).tokenizer? = some t :=
      (congrArg Ledger.tokenizer? hledger).symm.trans ht
    have hold : (s₀.run events).tokenizer? = some t := Ledger.tokenizer_of_asks ht'
    -- no request, one without a scope name, or one that is not answered yet
    rcases (s₀.run events).ledger.asks_cases scopeNames with hsame | ⟨-, hnone⟩ | ⟨-, hlatest⟩
    · rw [hsame] at hledger hpending
      have hrequests : (s₀.run (events ++ [e])).requests = (s₀.run events).requests :=
        congrArg Ledger.requests hledger
      refine h.tokenizer_concat hrequests (congrArg Ledger.scopeName hledger) (fun hawaits => ?_)
        hold
      have hsame' : (s₀.run (events ++ [e])).pending = (s₀.run events).pending := hpending
      refine Or.inl ?_
      rw [Awaits, hsame', hrequests]
      exact hawaits
    · rw [hnone] at ht'
      cases ht'
    · obtain ⟨r, hr, hnumber⟩ := hlatest
      refine ⟨(h.tokenizer t hold).1.concat, Or.inr (Or.inl ⟨r, hpending ▸ hr, ?_⟩)⟩
      exact hnumber.trans (congrArg Ledger.requests hledger).symm

/-- The tokenizer is gone. -/
theorem Matched.drops (h : s₀.Matched events)
    (hledger : (s₀.run (events ++ [e])).ledger =
      { (s₀.run events).ledger with tokenizer? := none }) : s₀.Matched (events ++ [e]) := by
  have hpending : (s₀.run (events ++ [e])).pending = (s₀.run events).pending :=
    congrArg Ledger.pending hledger
  have hnone : (s₀.run (events ++ [e])).tokenizer? = none := congrArg Ledger.tokenizer? hledger
  refine ⟨?_, hpending ▸ h.delivered, fun t ht => ?_⟩
  · rw [hledger]
    exact h.counted.of_sublist rfl rfl (List.Sublist.refl _) h.counted.looking
  · rw [hnone] at ht
    cases ht

/-- A delivery is noted. -/
theorem Matched.notes (h : s₀.Matched events) {number : Nat} {d : Delivery}
    (hhonest : ∀ t, d = .found t → ∀ r ∈ (s₀.run events).pending, r.number = number →
      t.scopeName = r.scopeName) : s₀.Matched (events ++ [.delivered number d]) := by
  have hrun : s₀.run (events ++ [.delivered number d]) = deliver number d (s₀.run events) :=
    run_concat s₀ events (.delivered number d)
  refine ⟨?_, fun r hr t hdelivery => ?_, fun t ht => ?_⟩
  · rw [hrun]
    exact counted_deliver h.counted number d
  · rw [hrun] at hr
    rcases mem_pending_deliver hr with hold | ⟨hnew, rfl, hpending⟩
    · exact h.delivered r hold t hdelivery
    · have hfound : d = .found t := Option.some.inj (hnew.symm.trans hdelivery)
      have hname := hhonest t hfound ⟨r.number, r.scopeName, none⟩ hpending rfl
      exact hname
  · rw [hrun] at ht
    refine h.tokenizer_concat (by rw [hrun]; rfl) (by rw [hrun]; rfl) ?_ ht
    rintro ⟨r, hr, hnumber⟩
    obtain ⟨r', hr', hsame⟩ := exists_pending_deliver number d hr
    refine Or.inl ?_
    rw [hrun]
    exact ⟨r', hr', hsame.trans hnumber⟩

/-- A look at the deliveries: the tokenizer is the one that was delivered for the last request, or is
the same. -/
theorem Matched.takesUp (h : s₀.Matched events) : s₀.Matched (events ++ [.polled]) := by
  have hrun : s₀.run (events ++ [.polled]) = (s₀.run events).poll := run_concat s₀ events .polled
  have hcounted := counted_poll h.counted
  rcases poll_cases h.counted with ⟨d, hr, hpoll⟩ | ⟨hnone, hpoll⟩
  · have hledger := ledger_poll_of_mem hpoll
    rw [← hrun] at hcounted hledger
    have hpending : (s₀.run (events ++ [.polled])).pending = (s₀.run events).unanswered :=
      congrArg Ledger.pending hledger
    refine ⟨hcounted, fun r hr => ?_, fun t ht => ?_⟩
    · rw [hpending] at hr
      exact h.delivered r ((unanswered_sublist _).subset hr)
    · have hbrought : d.tokenizer? = some t :=
        (congrArg Ledger.tokenizer? hledger).symm.trans ht
      cases d with
      | found t' =>
        obtain rfl := Option.some.inj hbrought
        have hname : t'.scopeName = (s₀.run (events ++ [.polled])).scopeName :=
          (h.delivered _ hr t' rfl).trans (congrArg Ledger.scopeName hledger).symm
        exact ⟨⟨events ++ [.polled], [], by simp, ht, hname⟩, Or.inl hname⟩
      | missing => cases hbrought
      | failed => cases hbrought
  · rw [← hrun] at hcounted
    have hpending : (s₀.run (events ++ [.polled])).pending = (s₀.run events).unanswered := by
      rw [hrun, hpoll]
    refine ⟨hcounted, fun r hr => ?_, fun t ht => ?_⟩
    · rw [hpending] at hr
      exact h.delivered r ((unanswered_sublist _).subset hr)
    · rw [hrun, hpoll] at ht
      refine h.tokenizer_concat (by rw [hrun, hpoll]) (by rw [hrun, hpoll]) ?_ ht
      -- the last request has no delivery, so it is still waited for
      rintro ⟨r, hr, hnumber⟩
      refine Or.inl ?_
      rw [Awaits, hpending, hrun, hpoll]
      refine ⟨r, List.mem_filter.mpr ⟨hr, ?_⟩, hnumber⟩
      rw [hnone r hr hnumber]
      rfl

/-- An honest event keeps the tokenizer matched. -/
theorem Matched.handle (h : s₀.Matched events) (hhonest : s₀.Honest (events ++ [e])) :
    s₀.Matched (events ++ [e]) := by
  by_cases he : e = .closed
  · subst he
    exact h.closed
  · have hrecords := records_handle he (s₀.run events)
    rw [← run_concat] at hrecords
    generalize hledger : (s₀.run (events ++ [e])).ledger = l at hrecords
    cases hrecords with
    | asks scopeNames => exact h.asks hledger
    | drops => exact h.drops hledger
    | notes number d =>
      refine h.notes fun t hfound => ?_
      subst hfound
      exact hhonest events (.delivered number (.found t)) [] rfl
    | takesUp => exact h.takesUp

/-- An honest run keeps the tokenizer matched, from an empty ledger on. -/
theorem matched_run (h : s₀.ledger = ⟨0, "", [], false, none⟩) (hhonest : s₀.Honest events) :
    s₀.Matched events := by
  induction events using List.reverseRecOn with
  | nil =>
    have hpending : s₀.pending = [] := congrArg Ledger.pending h
    have hnone : s₀.tokenizer? = none := congrArg Ledger.tokenizer? h
    refine ⟨?_, fun r hr => ?_, fun t ht => ?_⟩
    · rw [run_nil, h]
      exact ⟨.nil, by simp, by simp, by simp, fun hne => absurd rfl hne⟩
    · rw [run_nil, hpending] at hr
      cases hr
    · rw [run_nil, hnone] at ht
      cases ht
  | append_singleton events e ih => exact (ih hhonest.of_concat).handle hhonest

/-! ## Updates -/

/-- Looking at a document and finding its scopes leaves the requests alone, and brings no
tokenizer. -/
theorem ledger_of_begun {document : Document} (h : s.begun? = some (document, s')) :
    s'.ledger = s.ledger ∨ s'.ledger = { s.ledger with tokenizer? := none } := by
  obtain ⟨asked, hlooked, hensure⟩ := begun?_eq_some h
  obtain ⟨hasked, -⟩ := ledger_of_looked hlooked
  have hfound := ledger_ensureScopes document asked
  rw [Step.after_of_ok hensure, hasked] at hfound
  exact hfound.imp_right And.right

/-- An update does not turn to another editor. -/
theorem editor_of_begun {document : Document} (h : s.begun? = some (document, s')) :
    s'.editor? = s.editor? := by
  obtain ⟨asked, hlooked, hensure⟩ := begun?_eq_some h
  obtain ⟨name, hhost, -, -, -, hok⟩ := looked?_eq_some hlooked
  have hasked := (minds_snapshot (s := s.stopped) hhost).editor
  have hfound := (minds_ensureScopes document asked).editor
  rw [Step.after_of_ok hok] at hasked
  rw [Step.after_of_ok hensure] at hfound
  exact hfound.trans hasked

/-- Whatever has happened to a session: when an update begins to mask a document and there is a
tokenizer, the scope name is that of the language which the document of the session's editor had at
the last request, and the tokenizer is for this scope name, unless that request is not answered: it
is pending, or was so when the session was closed. Then the tokenizer is one that was for the scope
name at an earlier time. -/
theorem tokenizer_of_begun {settings : Json} {languages : String → Option String} {desk : Desk}
    (hstart : start settings languages desk = .ok s₀) (hhonest : s₀.Honest events)
    {document : Document} (hbegun : (s₀.run events).begun? = some (document, s')) {t : Tokenizer}
    (ht : s'.tokenizer? = some t) :
    (∃ before rest, events = before ++ rest ∧ (s₀.run before).requests = s'.requests ∧
      (s₀.run before).editor? = s'.editor? ∧ s'.scopeName = (s₀.run before).wanted) ∧
    s₀.Suited events t ∧ (t.scopeName = s'.scopeName ∨ s₀.Unanswered events) := by
  have hwanted : s₀.scopeName = s₀.wanted := by
    unfold start at hstart
    cases hsettings : Settings.normalize settings with
    | error fault => rw [hsettings] at hstart; cases hstart
    | ok members => rw [hsettings] at hstart; cases hstart; rfl
  have hsame : s'.ledger = (s₀.run events).ledger :=
    (ledger_of_begun hbegun).resolve_right fun hdropped => by
      have hnone : s'.tokenizer? = none := congrArg Ledger.tokenizer? hdropped
      rw [hnone] at ht
      cases ht
  have hname : s'.scopeName = (s₀.run events).scopeName := congrArg Ledger.scopeName hsame
  have hrequests : s'.requests = (s₀.run events).requests := congrArg Ledger.requests hsame
  have htokenizer : s'.tokenizer? = (s₀.run events).tokenizer? :=
    congrArg Ledger.tokenizer? hsame
  rw [htokenizer] at ht
  rw [hname, hrequests, editor_of_begun hbegun]
  exact ⟨resolved_run hwanted events, (matched_run (ledger_of_start hstart) hhonest).tokenizer t ht⟩

/-! ## A run in which the last request is answered, and one in which it is not yet -/

instance (s : Session) : (e : Event) → Decidable (s.Declares e)
  | .delivered number (.found t) =>
    inferInstanceAs (Decidable (∀ r ∈ s.pending, r.number = number → t.scopeName = r.scopeName))
  | .delivered _ .missing | .delivered _ .failed | .turnTo _ | .told _ | .settingsChanged _
  | .pauseOver | .polled | .closed | .displayed _ _ | .chosen _ _ | .styled _ _ | .sent _ _
  | .worked _ _ | .perished _ => .isTrue trivial

theorem honest_of_forall
    (h : ∀ n < events.length, ∀ e ∈ events[n]?, (s₀.run (events.take n)).Declares e) :
    s₀.Honest events := by
  rintro before e rest rfl
  have hdeclares := h before.length (by simp) e (by simp)
  rwa [List.take_left] at hdeclares

/-- The language of one of two documents has a line tokenizer. -/
def twoLanguages (languageId : String) : Option String :=
  some (if languageId = "l" then "text" else "other")

def linesDocument : Document := { text := "a", languageId := "l", revision := 1 }

def otherDocument : Document := { text := "a", languageId := "m", revision := 1 }

def languagesDesk : Desk where
  editors := [("e", { content := .given (some linesDocument) [] .null }),
    ("f", { content := .given (some otherDocument) [] .null })]

/-- The session turns to an editor and gets the tokenizer that it has asked for. -/
def answeredRequest : List Event :=
  [.turnTo (some "e"), .delivered 1 (.found (lineTokenizer 1)), .polled]

/-- Then it turns to another one. -/
def pendingRequest : List Event := answeredRequest ++ [.pauseOver, .turnTo (some "f")]

/-- A request is answered before the next update, whose tokenizer is for the scope name then. -/
theorem tokenizer_answered : ∃ s₀ s' t,
    start (.obj []) twoLanguages languagesDesk = .ok s₀ ∧ s₀.Honest answeredRequest ∧
      (s₀.run answeredRequest).begun? = some (linesDocument, s') ∧ s'.tokenizer? = some t ∧
      t.scopeName = s'.scopeName := by
  obtain ⟨s₀, hstart, hready⟩ := @exists_start (.obj []) twoLanguages languagesDesk
    (fun s₀ => decide (
      (∀ n < answeredRequest.length, ∀ e ∈ answeredRequest[n]?,
        (s₀.run (answeredRequest.take n)).Declares e) ∧
      (s₀.run answeredRequest).pending.length = 0 ∧
      (s₀.run answeredRequest).begun?.map (fun seen => (seen.1, seen.2.tokenizer?.isSome)) =
        some (linesDocument, true)))
    (by decide +kernel)
  obtain ⟨hdeclares, hpending, hbegun⟩ := of_decide_eq_true hready
  obtain ⟨⟨document, s'⟩, hbegun', heq⟩ := Option.map_eq_some_iff.mp hbegun
  obtain ⟨rfl, hsome⟩ : document = linesDocument ∧ s'.tokenizer?.isSome = true := by simpa using heq
  obtain ⟨t, ht⟩ := Option.isSome_iff_exists.mp hsome
  have hhonest := honest_of_forall hdeclares
  obtain ⟨-, -, hsuits⟩ := tokenizer_of_begun hstart hhonest hbegun' ht
  refine ⟨s₀, s', t, hstart, hhonest, hbegun', ht, hsuits.resolve_right ?_⟩
  -- nothing is pending, and the session has not been closed
  rintro (⟨r, hr, -⟩ | ⟨before, rest, heq, -⟩)
  · rw [List.length_eq_zero_iff.mp hpending] at hr
    cases hr
  · have hclosed : .closed ∈ answeredRequest := heq ▸ List.mem_append_right _ List.mem_cons_self
    simp [answeredRequest] at hclosed

/-- An update masks the document of the other editor while the tokenizer is still the one for the
language of the first. -/
theorem tokenizer_of_other_language : ∃ s₀ s' t,
    start (.obj []) twoLanguages languagesDesk = .ok s₀ ∧ s₀.Honest pendingRequest ∧
      (s₀.run pendingRequest).begun? = some (otherDocument, s') ∧ s'.tokenizer? = some t ∧
      t.scopeName ≠ s'.scopeName ∧ twoLanguages otherDocument.languageId = some s'.scopeName := by
  obtain ⟨s₀, hstart, hready⟩ := @exists_start (.obj []) twoLanguages languagesDesk
    (fun s₀ => decide (
      (∀ n < pendingRequest.length, ∀ e ∈ pendingRequest[n]?,
        (s₀.run (pendingRequest.take n)).Declares e) ∧
      (s₀.run pendingRequest).begun?.map (fun seen =>
        (seen.1, seen.2.tokenizer?.map Tokenizer.scopeName, seen.2.scopeName)) =
          some (otherDocument, some "text", "other")))
    (by decide +kernel)
  obtain ⟨hdeclares, hbegun⟩ := of_decide_eq_true hready
  obtain ⟨⟨document, s'⟩, hbegun', heq⟩ := Option.map_eq_some_iff.mp hbegun
  obtain ⟨rfl, htokenizer, hname⟩ : document = otherDocument ∧
      s'.tokenizer?.map Tokenizer.scopeName = some "text" ∧ s'.scopeName = "other" := by
    simpa only [Prod.mk.injEq] using heq
  obtain ⟨t, ht, htext⟩ := Option.map_eq_some_iff.mp htokenizer
  refine ⟨s₀, s', t, hstart, honest_of_forall hdeclares, hbegun', ht, ?_, ?_⟩
  · rw [htext, hname]
    decide
  · rw [hname]
    rfl

end Conceal.Session
