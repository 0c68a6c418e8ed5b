import Conceal.Proofs.Masking.Granting
import Conceal.Proofs.Session.Passes
import Conceal.Proofs.Session.Rules

/-!
What rules and entries that cannot be used do to an update. While the host grants every call and the
scopes of its document are found, an update comes to an end unless one of them ends it; and then it
leaves the same decorations as an update with clean rules, which always comes to an end. Main
statement: `update_completes_iff`.
-/

namespace Conceal.Session

/-- The session with clean rules. -/
def cleaned (s : Session) : Session :=
  { s with settings := s.settings.insert "masks" (.arr (s.rules.filterMap cleanRule)) }

/-- An update ends at a rule. -/
def Broken (s : Session) : Prop :=
  ∃ name document, s.host? = some name ∧ (s.settings.get "enabled").isTruthy = true ∧
    s.desk.document? name = some document ∧ ∃ rule ∈ s.rules, Breaks document rule

/-- The host grants every call, its selections can be read, and for its document the scopes are found
and have an answer for every line. -/
structure Granted (s : Session) : Prop where
  desk : ∀ name, s.host? = some name → s.desk.Grants name
  scopes : ∀ name document, s.host? = some name → s.desk.document? name = some document →
    ∃ s', ensureScopes document (Step.after (onDesk (Desk.snapshot name)) s) = .ok () s' ∧
      ∀ line : Nat, line < document.lineCount →
        ∃ answer, s'.masking.scopes.tokens? line = .ok answer

variable {s t s' s₀ : Session} {name : String} {document : Document}

/-! ## Clean settings -/

/-- Cleaning keeps of every rule what can be used. -/
theorem rules_cleaned (s : Session) : s.cleaned.rules = s.rules.filterMap cleanRule := by
  rw [rules, cleaned, get_insert_self]

/-- Cleaning touches no setting but the rules. -/
theorem get_cleaned (s : Session) {key : String} (h : key ≠ "masks") :
    s.cleaned.settings.get key = s.settings.get key := by
  rw [cleaned, Json.Members.get, Json.Members.get, Json.Members.get?_insert, if_neg h]

/-- With clean rules nothing fails. -/
theorem not_fail_cleaned (document : Document) (s : Session) (fault : Fault) :
    .fail fault ∉ orders document s.cleaned.rules := by
  rw [rules_cleaned, orders_clean]
  simp

/-- Cleaned rules break no update. -/
theorem not_broken_cleaned (s : Session) : ¬ s.cleaned.Broken := by
  rintro ⟨name, document, -, -, -, hbreaks⟩
  obtain ⟨fault, hfail⟩ := (fail_mem_orders_iff document _).mpr hbreaks
  exact not_fail_cleaned document s fault hfail

/-! ## The same update with clean settings -/

/-- Two sessions during an update: one with the settings of a session, the other with these settings
cleaned. Their notices may differ. -/
structure Cleans (s₀ s t : Session) : Prop where
  settings : s.settings = s₀.settings
  clean : t.settings = s₀.cleaned.settings
  masking : s.masking.Similar t.masking
  stale : t.stale = s.stale
  tokenizedFor : t.tokenizedFor = s.tokenizedFor

theorem cleans_self (s : Session) : Cleans s s s.cleaned :=
  ⟨rfl, rfl, Masking.Similar.refl _, rfl, rfl⟩

theorem Cleans.host?_eq (h : Cleans s₀ s t) : t.host? = s.host? := by
  unfold host? editor? desk
  rw [h.masking.editor?_eq, h.masking.decorations]

/-- Throughout an update the rules are those from its beginning, cleaned on one side. -/
theorem Cleans.rules_eq (h : Cleans s₀ s t) : s.rules = s₀.rules ∧ t.rules = s₀.cleaned.rules := by
  unfold rules
  rw [h.settings, h.clean]
  exact ⟨rfl, rfl⟩

theorem Cleans.get_eq (h : Cleans s₀ s t) {key : String} (hkey : key ≠ "masks") :
    t.settings.get key = s.settings.get key := by
  rw [h.clean, h.settings, get_cleaned s₀ hkey]

/-- The caret style does not depend on the rules. -/
theorem Cleans.caretStyle_eq (h : Cleans s₀ s t) : t.caretStyle = s.caretStyle := by
  unfold caretStyle editor? desk
  rw [h.masking.editor?_eq, h.masking.decorations, h.get_eq (by decide)]

/-- What agrees but for notices agrees on both sides. -/
theorem agrees_onMasking {α : Type} {x y : Step Masking α}
    (h : Step.Agrees Masking.Similar x y) :
    Step.Agrees (Cleans s₀) (onMasking x) (onMasking y) :=
  Step.agrees_on h (fun _ _ h => h.masking)
    fun _ _ _ _ h hpart => ⟨h.settings, h.clean, hpart, h.stale, h.tokenizedFor⟩

theorem agrees_onDesk {α : Type} (act : Step Desk α) :
    Step.Agrees (Cleans s₀) (onDesk act) (onDesk act) :=
  agrees_onMasking (Masking.agrees_onDecorations _)

/-- Scopes are found alike on both sides. -/
theorem agrees_ensureScopes (document : Document) :
    Step.Agrees (Cleans s₀) (ensureScopes document) (ensureScopes document) := by
  refine Step.agrees_get_bind fun s t h => ?_
  have hkey : t.scopesKey document = s.scopesKey document := by
    rw [scopesKey, scopesKey, tokenizer?, tokenizer?, h.masking.scopes]
  rw [h.stale, h.tokenizedFor, hkey, h.masking.scopes]
  have hmasking (scopes : LineScopes) (notices : List Notice) (notices' : List Notice) :
      Masking.Similar { s.masking with scopes, notices }
        { t.masking with scopes, notices := notices' } :=
    ⟨h.masking.decorations, rfl, h.masking.passKeys⟩
  dsimp only
  split
  · exact .ok () ⟨h.settings, h.clean, hmasking _ _ _, rfl, rfl⟩
  · cases (s.masking.scopes.setDocument (some document)).rebuild.fault with
    | some fault => exact .error fault ⟨h.settings, h.clean, hmasking _ _ _, rfl, rfl⟩
    | none => exact .ok () ⟨h.settings, h.clean, hmasking _ _ _, rfl, rfl⟩

/-- Where no rule ends it, masking a document with clean rules comes to the same. -/
theorem agrees_maskDocument (hok : ∀ fault, .fail fault ∉ orders document s₀.rules) :
    Step.Agrees (Cleans s₀) (maskDocument document) (maskDocument document) := by
  refine (agrees_ensureScopes document).bind fun _ => Step.agrees_get_bind fun s t h => ?_
  rw [h.rules_eq.1, h.rules_eq.2, h.caretStyle_eq, rules_cleaned, applyRules_eq, applyRules_eq,
    orders_clean, ← entries_orders hok]
  refine ((agrees_onMasking (Masking.agrees_update (Masking.agrees_obey _ hok))).bind
    fun applied => ?_) s t h
  exact Step.agrees_modify fun _ _ h => ⟨h.settings, h.clean, h.masking, h.stale, h.tokenizedFor⟩

/-- Where no rule ends it, an update with clean rules comes to the same. -/
theorem alike_update (h : ¬ s.Broken) : Step.Alike (Cleans s) (update s) (update s.cleaned) := by
  have hself := cleans_self s
  have hsame : s.cleaned.settings.get "enabled" = s.settings.get "enabled" :=
    hself.get_eq (by decide)
  cases hhost : s.host? with
  | none =>
    rw [update_of_no_host hhost, update_of_no_host (hself.host?_eq.trans hhost)]
    exact .ok () hself
  | some name =>
    have hhost' := hself.host?_eq.trans hhost
    obtain ⟨hname, halive⟩ := host?_eq_some.mp hhost
    obtain ⟨hname', halive'⟩ := host?_eq_some.mp hhost'
    by_cases henabled : (s.settings.get "enabled").isTruthy = true
    · rw [update_of_enabled hname halive henabled,
        update_of_enabled hname' halive' (hsame ▸ henabled)]
      -- both ask for the text of the same host, and go on with the same answer
      refine (agrees_onDesk (Desk.snapshot name) s s.cleaned hself).bind fun found s₁ hok => ?_
      rw [onDesk_snapshot_eq name s] at hok
      injection hok with hdocument
      cases found with
      | none => exact Step.agrees_pure ()
      | some document =>
        refine agrees_maskDocument fun fault hfail => h ⟨name, document, hhost, henabled, ?_, ?_⟩
        · exact hdocument
        · exact (fail_mem_orders_iff document s.rules).mp ⟨fault, hfail⟩
    · rw [update_of_disabled hhost henabled, update_of_disabled hhost' (hsame ▸ henabled)]
      exact agrees_onMasking (Masking.agrees_onDecorations _) s s.cleaned hself

/-! ## Updates that come to an end -/

/-- Asking for the document and finding its scopes leaves the settings alone. -/
theorem rules_of_found
    (h : ensureScopes document (Step.after (onDesk (Desk.snapshot name)) s) = .ok () s') :
    s'.rules = s.rules := by
  obtain ⟨hsettings, -⟩ := ensureScopes_eq document (Step.after (onDesk (Desk.snapshot name)) s)
  rw [Step.after_of_ok h, after_onDesk] at hsettings
  rw [rules, rules, hsettings]

/-- What the masking of a document begins with. -/
theorem Granted.begins (h : s.Granted) (hhost : s.host? = some name)
    (hdocument : s.desk.document? name = some document) :
    ∃ s', ensureScopes document (Step.after (onDesk (Desk.snapshot name)) s) = .ok () s' ∧
      s'.masking.Granted := by
  obtain ⟨s', hfound, hscopes⟩ := h.scopes name document hhost hdocument
  have hensured := minds_ensureScopes document (Step.after (onDesk (Desk.snapshot name)) s)
  rw [Step.after_of_ok hfound] at hensured
  have hminds : Minds s s' := (minds_snapshot hhost).trans hensured
  have hname : s'.editor? = some name := hminds.editor.trans (host?_eq_some.mp hhost).1
  refine ⟨s', hfound, ?_, ?_⟩
  · intro host hhost'
    obtain rfl : name = host := Option.some.inj (hname.symm.trans hhost')
    exact hminds.desk.grants (h.desk name hhost)
  · intro host document' hhost' hdocument'
    obtain rfl : name = host := Option.some.inj (hname.symm.trans hhost')
    have hsame := hminds.desk.document?_eq name
    rw [hdocument] at hsame
    obtain rfl : document = document' := Option.some.inj (hsame.symm.trans hdocument')
    exact hscopes

/-- While the host grants every call, an update comes to an end unless it ends at a rule. -/
theorem update_ok_of_granted (h : s.Granted) (hrules : ¬ s.Broken) : ∃ s', update s = .ok () s' := by
  cases hhost : s.host? with
  | none => exact ⟨s, update_of_no_host hhost⟩
  | some name =>
    obtain ⟨hname, halive⟩ := host?_eq_some.mp hhost
    by_cases henabled : (s.settings.get "enabled").isTruthy = true
    · rw [update_of_enabled hname halive henabled, Step.bind_of_ok (onDesk_snapshot_eq name s)]
      cases hdocument : s.desk.document? name with
      | none => exact ⟨_, rfl⟩
      | some document =>
        obtain ⟨s', hfound, hgranted⟩ := h.begins hhost hdocument
        have hok : ∀ fault, .fail fault ∉ orders document s'.rules := fun fault hfail =>
          hrules ⟨name, document, hhost, henabled, hdocument,
            (fail_mem_orders_iff document s.rules).mp ⟨fault, rules_of_found hfound ▸ hfail⟩⟩
        -- no rule fails for this document, so that all orders are carried out
        have hobey := Masking.completes_obey s'.caretStyle hok
        rw [← applyRules_eq] at hobey
        obtain ⟨applied, m, hmasked⟩ := Masking.completes_update hobey
          (works_applyRules document s'.caretStyle s'.rules) s'.masking hgranted
        show ∃ s'', maskDocument document _ = .ok () s''
        unfold maskDocument
        rw [Step.bind_of_ok hfound, Step.bind_of_ok (Step.get_apply s'), onMasking,
          Step.bind_of_ok (Step.on_of_ok hmasked)]
        exact ⟨_, rfl⟩
    · have hgranted : s.masking.decorations.Granted := fun host hhost' => by
        obtain rfl : name = host := Option.some.inj (hname.symm.trans hhost')
        exact h.desk name hhost
      obtain ⟨_, d, hclear⟩ := Decorations.completes_clear s.masking.decorations hgranted
      rw [update_of_disabled hhost henabled]
      exact ⟨_, Step.on_of_ok (Step.on_of_ok hclear)⟩

/-- The host does not look at rules. -/
theorem granted_cleaned (h : s.Granted) : s.cleaned.Granted := by
  have hself := cleans_self s
  refine ⟨h.desk, fun name document hhost hdocument => ?_⟩
  have hasked : Cleans s (Step.after (onDesk (Desk.snapshot name)) s)
      (Step.after (onDesk (Desk.snapshot name)) s.cleaned) :=
    (agrees_onDesk _ s s.cleaned hself).after
  obtain ⟨s', hfound, hscopes⟩ := h.scopes name document hhost hdocument
  have hensured := agrees_ensureScopes document _ _ hasked
  rw [hfound] at hensured
  generalize ensureScopes document _ = r at hensured ⊢
  cases hensured with
  | ok _ hcleans =>
    refine ⟨_, rfl, ?_⟩
    rw [hcleans.masking.scopes]
    exact hscopes

/-- What comes to an end has not ended at a rule. -/
theorem not_broken_of_ok (h : update s = .ok () s') : ¬ s.Broken := by
  rintro ⟨name, document, hhost, henabled, hdocument, hbreaks⟩
  obtain ⟨hname, halive⟩ := host?_eq_some.mp hhost
  rw [update_of_enabled hname halive henabled, Step.bind_of_ok (onDesk_snapshot_eq name s),
    hdocument] at h
  obtain ⟨_, s₁, hfound, hmask⟩ := Step.exists_of_bind_eq_ok h
  rw [Step.bind_of_ok (Step.get_apply s₁), applyRules_eq, rules_of_found hfound] at hmask
  obtain ⟨applied, s₂, hupdate, -⟩ := Step.exists_of_bind_eq_ok hmask
  obtain ⟨fault, hfail⟩ := (fail_mem_orders_iff document s.rules).mpr hbreaks
  cases hobey : Masking.obey s₁.caretStyle (orders document s.rules)
      { s₁.masking with passKeys := some [] } with
  | ok applied' m => exact Masking.not_fail_of_obey hobey fault hfail
  | error other m =>
    rw [onMasking, Step.on_of_error (Masking.update_of_error hobey)] at hupdate
    cases hupdate

/-- While the host grants every call and the scopes of its document can be found, an update comes to
an end unless it masks a document and ends at a rule: one whose selector is a number or a truth
value, or one that selects the document and has an entry whose pattern is refused for another reason
than that it is malformed. When it comes to an end it leaves the decorations, with their looks and
stretches, that the update leaves with clean rules, which are those without the entries that are no
masks; with these an update always comes to an end. -/
theorem update_completes_iff (h : s.Granted) :
    ((∃ s', update s = .ok () s') ↔ ¬ s.Broken) ∧
      ∃ t, update s.cleaned = .ok () t ∧
        ∀ s', update s = .ok () s' → s'.masking.decorations = t.masking.decorations := by
  obtain ⟨t, ht⟩ := update_ok_of_granted (granted_cleaned h) (not_broken_cleaned s)
  refine ⟨⟨fun ⟨s', hs'⟩ => not_broken_of_ok hs', update_ok_of_granted h⟩, t, ht, ?_⟩
  intro s' hs'
  have halike := (alike_update (not_broken_of_ok hs')).after
  rw [Step.after_of_ok hs', Step.after_of_ok ht] at halike
  exact halike.masking.decorations.symm

/-! ## A rule that is skipped, and one that ends an update -/

/-- A session whose host grants every call. -/
def grantedSession (rules : List Json) : Session where
  settings := [("enabled", .bool true), ("debounce_ms", .int 50), ("cursor_style", .str "line"),
    ("masks", .arr rules)]
  languages := fun _ => none
  masking.decorations :=
    { desk.editors := [("e", { content := .given (some { text := "ab" }) [] .null })]
      host := some "e" }

theorem granted_grantedSession (rules : List Json) : (grantedSession rules).Granted where
  desk name hname := by
    obtain rfl : "e" = name := Option.some.inj hname
    refine ⟨fun e he call => ?_, [], rfl⟩
    obtain rfl := Option.some.inj he
    rfl
  scopes name document hname hdocument := by
    obtain rfl : "e" = name := Option.some.inj hname
    obtain rfl := Option.some.inj hdocument
    -- there is no tokenizer that could fail
    exact ⟨_, rfl, fun line _ => ⟨_, rfl⟩⟩

/-- Does one test hold of the session after an update that ends well, or else another one of the
fault and the session that it leaves? -/
def endsAs (s : Session) (well : Session → Bool) (ill : Fault → Session → Bool) : Bool :=
  match update s with
  | .ok _ s' => well s'
  | .error fault s' => ill fault s'

/-- A rule with an entry that is a mask and one that is none. -/
def letterRule : Json :=
  .obj [("selector", .str "*"),
    ("patterns", .arr [.int 1, .obj [("pattern", .str "a"), ("replace", .str "x")]])]

/-- A rule whose selector is a number. -/
def numberRule : Json := .obj [("selector", .int 5), ("patterns", .arr [])]

/-- A rule that can be used does the same alone and cleaned. -/
theorem letter_rule_masks :
    Settings.normalize (.obj [("masks", .arr [letterRule])]) =
        .ok (grantedSession [letterRule]).settings ∧
      (grantedSession [letterRule]).Granted ∧ ¬ (grantedSession [letterRule]).Broken ∧
      ∃ s' t, update (grantedSession [letterRule]) = .ok () s' ∧
        update (grantedSession [letterRule]).cleaned = .ok () t ∧
        s'.masking.decorations = t.masking.decorations ∧ t.masking.decorations.keys = ["a"] := by
  have hgranted := granted_grantedSession [letterRule]
  obtain ⟨hcompletes, t, ht, hsame⟩ := update_completes_iff hgranted
  have hkeys : (grantedSession [letterRule]).endsAs
      (fun s' => decide (s'.masking.decorations.keys = ["a"])) (fun _ _ => false) = true := by
    decide +kernel
  unfold endsAs at hkeys
  split at hkeys
  next s' hs' =>
    have hdrawn := of_decide_eq_true hkeys
    refine ⟨rfl, hgranted, hcompletes.mp ⟨s', hs'⟩, s', t, hs', ht, hsame s' hs', ?_⟩
    rw [← hsame s' hs']
    exact hdrawn
  · cases hkeys

/-- A rule whose selector is a number ends the update before the other rule is applied. -/
theorem number_rule_ends_update :
    Settings.normalize (.obj [("masks", .arr [numberRule, letterRule])]) =
        .ok (grantedSession [numberRule, letterRule]).settings ∧
      (grantedSession [numberRule, letterRule]).Granted ∧
      (∃ s', update (grantedSession [numberRule, letterRule]) = .error .wrongKind s' ∧
        s'.masking.decorations.keys = []) ∧
      ∃ t, update (grantedSession [numberRule, letterRule]).cleaned = .ok () t ∧
        t.masking.decorations.keys = ["a"] := by
  have hends : (grantedSession [numberRule, letterRule]).endsAs (fun _ => false)
      (fun fault s' => decide (fault = .wrongKind ∧ s'.masking.decorations.keys = [])) = true := by
    decide +kernel
  have hcleaned : (grantedSession [numberRule, letterRule]).cleaned.endsAs
      (fun t => decide (t.masking.decorations.keys = ["a"])) (fun _ _ => false) = true := by
    decide +kernel
  unfold endsAs at hends hcleaned
  refine ⟨rfl, granted_grantedSession _, ?_, ?_⟩
  · split at hends
    · cases hends
    next fault s' hs' =>
      obtain ⟨rfl, hkeys⟩ := of_decide_eq_true hends
      exact ⟨s', hs', hkeys⟩
  · split at hcleaned
    next t ht => exact ⟨t, ht, of_decide_eq_true hcleaned⟩
    · cases hcleaned

end Conceal.Session
