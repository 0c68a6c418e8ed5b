import Conceal.Proofs.Decoration.Tidy
import Conceal.Proofs.Session.Ledger
import Mathlib.Data.List.Induction
import Mathlib.Tactic.Push

/-!
The last request for a grammar wins. However requests, deliveries and looks at them follow one
another, a delivery is taken up for the last request only, and once that is settled the tokenizer is
the one that it brought, if that has not failed since. Main statement: `last_request_wins`.
-/

namespace Conceal

/-! ## Numbers -/

namespace Ledger

/-- The pending requests are numbered in order up to the last request, which is for the scope name
of the document, and their deliveries are looked for. -/
structure Counted (l : Ledger) : Prop where
  sorted : l.pending.Pairwise fun r r' => r.number < r'.number
  bounded : ∀ r ∈ l.pending, r.number ≤ l.requests
  named : ∀ r ∈ l.pending, r.scopeName ≠ ""
  latest : ∀ r ∈ l.pending, r.number = l.requests → r.scopeName = l.scopeName
  looking : l.pending ≠ [] → l.polling = true

variable {l l' : Ledger}

/-- Deliveries do not count, and requests may be settled. -/
theorem Counted.of_sublist (h : l.Counted) (hrequests : l'.requests = l.requests)
    (hscopeName : l'.scopeName = l.scopeName)
    (hsub : (l'.pending.map fun r => (r.number, r.scopeName)).Sublist
      (l.pending.map fun r => (r.number, r.scopeName)))
    (hlooking : l'.pending ≠ [] → l'.polling = true) : l'.Counted := by
  have hold : ∀ r ∈ l'.pending,
      ∃ r₀ ∈ l.pending, r₀.number = r.number ∧ r₀.scopeName = r.scopeName := by
    intro r hr
    obtain ⟨r₀, hr₀, heq⟩ := List.mem_map.mp (hsub.subset (List.mem_map_of_mem hr))
    exact ⟨r₀, hr₀, congrArg Prod.fst heq, congrArg Prod.snd heq⟩
  refine ⟨?_, fun r hr => ?_, fun r hr => ?_, fun r hr hnumber => ?_, hlooking⟩
  · have hsorted : (l.pending.map fun r => (r.number, r.scopeName)).Pairwise
        fun p p' => p.1 < p'.1 := List.pairwise_map.mpr h.sorted
    have hsorted' := hsorted.sublist hsub
    simpa only [List.pairwise_map] using hsorted'
  · obtain ⟨r₀, hr₀, hnumber, -⟩ := hold r hr
    rw [← hnumber, hrequests]
    exact h.bounded r₀ hr₀
  · obtain ⟨r₀, hr₀, -, hname⟩ := hold r hr
    rw [← hname]
    exact h.named r₀ hr₀
  · obtain ⟨r₀, hr₀, hnumber₀, hname⟩ := hold r hr
    rw [← hname, hscopeName]
    exact h.latest r₀ hr₀ (by rw [hnumber₀, hnumber, hrequests])

/-- A request more is numbered after all others. -/
theorem Counted.ask (h : l.Counted) (scopeName : String) : (l.ask scopeName).Counted := by
  -- what was pending before is for an earlier request
  have hearlier : ∀ r ∈ l.pending, r.number < l.requests + 1 := fun r hr =>
    Nat.lt_succ_of_le (h.bounded r hr)
  unfold Ledger.ask
  split
  · exact ⟨h.sorted, fun r hr => Nat.le_of_lt (hearlier r hr), h.named,
      fun r hr heq => absurd heq (Nat.ne_of_lt (hearlier r hr)), h.looking⟩
  next hname =>
    let new : GrammarRequest := { number := l.requests + 1, scopeName }
    have hmem : ∀ r ∈ l.pending ++ [new], r ∈ l.pending ∨ r = new := by simp
    refine ⟨?_, fun r hr => ?_, fun r hr => ?_, fun r hr heq => ?_, fun _ => rfl⟩
    · refine List.pairwise_append.mpr ⟨h.sorted, List.pairwise_singleton _ _, ?_⟩
      intro r hr r' hr'
      rw [List.mem_singleton.mp hr']
      exact hearlier r hr
    · rcases hmem r hr with hr | rfl
      · exact Nat.le_of_lt (hearlier r hr)
      · exact Nat.le_refl _
    · rcases hmem r hr with hr | rfl
      · exact h.named r hr
      · exact hname
    · rcases hmem r hr with hr | rfl
      · exact absurd heq (Nat.ne_of_lt (hearlier r hr))
      · rfl

theorem Counted.asks (h : l.Counted) (scopeNames : List String) :
    (scopeNames.foldl Ledger.ask l).Counted := by
  induction scopeNames generalizing l with
  | nil => exact h
  | cons scopeName rest ih => exact ih (h.ask scopeName)

/-- New requests have no delivery. -/
theorem mem_pending_asks {scopeNames : List String} {r : GrammarRequest}
    (h : r ∈ (scopeNames.foldl Ledger.ask l).pending) : r ∈ l.pending ∨ r.delivery = none := by
  induction scopeNames generalizing l with
  | nil => exact Or.inl h
  | cons scopeName rest ih =>
    refine (ih h).elim (fun hask => ?_) Or.inr
    unfold Ledger.ask at hask
    split at hask
    · exact Or.inl hask
    · refine (List.mem_append.mp hask).imp_right fun hnew => ?_
      rw [List.mem_singleton.mp hnew]

/-- Requests bring no tokenizer. -/
theorem tokenizer_of_asks {scopeNames : List String} {t : Tokenizer}
    (h : (scopeNames.foldl Ledger.ask l).tokenizer? = some t) : l.tokenizer? = some t := by
  induction scopeNames generalizing l with
  | nil => exact h
  | cons scopeName rest ih =>
    have hask := ih h
    unfold Ledger.ask at hask
    split at hask
    · cases hask
    · exact hask

/-- Some requests are none, or the last of them is pending, or it was for no scope name and has
removed the tokenizer. -/
theorem asks_cases (l : Ledger) (scopeNames : List String) :
    let l' := scopeNames.foldl Ledger.ask l
    l' = l ∨ (l'.scopeName = "" ∧ l'.tokenizer? = none) ∨
      l'.scopeName ≠ "" ∧ ∃ r ∈ l'.pending, r.number = l'.requests := by
  intro l'
  rcases List.eq_nil_or_concat scopeNames with rfl | ⟨names, scopeName, hnames⟩
  · exact Or.inl rfl
  · -- only the last request matters
    have hlast : l' = (names.foldl Ledger.ask l).ask scopeName := by
      show scopeNames.foldl Ledger.ask l = _
      rw [hnames, List.concat_eq_append, List.foldl_append]
      rfl
    rw [hlast, Ledger.ask]
    split
    next hempty => exact Or.inr (Or.inl ⟨hempty, rfl⟩)
    next hname => exact Or.inr (Or.inr ⟨hname, _, List.mem_append_right _ List.mem_cons_self, rfl⟩)

end Ledger

namespace Session

variable {s : Session} {scopeName : String} {d : Delivery}

/-! ## Taking up deliveries -/

/-- A delivery for an earlier request is dropped. -/
theorem settle_of_ne {number : Nat} (h : number ≠ s.requests) :
    settle number scopeName d s = s := if_pos h

/-- What is settled for the last request is the tokenizer. -/
theorem ledger_settle (scopeName : String) (d : Delivery) (s : Session) :
    (settle s.requests scopeName d s).ledger = { s.ledger with tokenizer? := d.tokenizer? } := by
  have hset (t : Tokenizer) : (s.masking.scopes.setTokenizer (some t)).tokenizer = some t := by
    unfold LineScopes.setTokenizer
    split <;> rfl
  unfold settle
  rw [if_neg (fun h => h rfl)]
  cases d with
  | found t =>
    show ({ s.ledger with
      tokenizer? := (s.masking.scopes.setTokenizer (some t)).tokenizer } : Ledger) = _
    rw [hset]
    rfl
  | missing => rfl
  | failed => rfl

/-- As long as nothing came for the last request, nothing is taken up. -/
theorem settleEach_of_none {rs : List GrammarRequest}
    (h : ∀ r ∈ rs, r.number = s.requests → r.delivery = none) : settleEach rs s = s := by
  induction rs with
  | nil => rfl
  | cons r rest ih =>
    have hrest := ih fun r hr => h r (List.mem_cons_of_mem _ hr)
    unfold settleEach
    cases hdelivery : r.delivery with
    | none => exact hrest
    | some d =>
      have hne : r.number ≠ s.requests := fun heq => by
        rw [h r List.mem_cons_self heq] at hdelivery
        cases hdelivery
      simp only
      rw [settle_of_ne hne]
      exact hrest

/-- Among requests in order only the last one is settled. -/
theorem settleEach_of_mem {rs : List GrammarRequest}
    (hsorted : rs.Pairwise fun r r' => r.number < r'.number)
    (h : ⟨s.requests, scopeName, some d⟩ ∈ rs) :
    settleEach rs s = settle s.requests scopeName d s := by
  induction rs with
  | nil => cases h
  | cons r rest ih =>
    obtain ⟨hlater, hsorted⟩ := List.pairwise_cons.mp hsorted
    unfold settleEach
    rcases List.mem_cons.mp h with rfl | hrest
    · refine settleEach_of_none fun r hr heq => ?_
      have hrequests : (settle s.requests scopeName d s).requests = s.requests :=
        congrArg Ledger.requests (ledger_settle scopeName d s)
      exact absurd (heq.trans hrequests) (Nat.ne_of_gt (hlater r hr))
    · have hne : r.number ≠ s.requests := Nat.ne_of_lt (hlater _ hrest)
      cases r.delivery with
      | none => exact ih hsorted hrest
      | some d' =>
        simp only
        rw [settle_of_ne hne]
        exact ih hsorted hrest

/-- The pending requests without a delivery. -/
def unanswered (s : Session) : List GrammarRequest := s.pending.filter (·.delivery.isNone)

/-- Looking for deliveries takes up what is there, and goes on while requests are unanswered. -/
theorem poll_eq (hlooking : s.pending ≠ [] → s.polling = true) {t : Session}
    (h : settleEach s.pending s = t) (hpending : t.pending = s.pending)
    (hpolling : t.polling = s.polling) :
    s.poll = { t with pending := s.unanswered, polling := !s.unanswered.isEmpty } := by
  unfold poll
  by_cases hpoll : s.polling = true
  · rw [if_pos hpoll, drain, h, hpending, hpolling, hpoll, Bool.true_and]
    rfl
  · -- nobody looks, so nothing is pending
    have hnil : s.pending = [] := by
      by_contra hne
      exact hpoll (hlooking hne)
    rw [hnil] at h
    obtain rfl : s = t := h
    have hfalse : s.polling = false := by simpa using hpoll
    have hsame {pending : List GrammarRequest} {polling : Bool} (hpending : s.pending = pending)
        (hpolling : s.polling = polling) : s = { s with pending, polling } := by
      subst hpending hpolling
      rfl
    rw [if_neg hpoll, unanswered, hnil]
    exact hsame hnil hfalse

/-- A look at the deliveries settles the last request, if that has one, and nothing else. -/
theorem poll_cases (h : s.ledger.Counted) :
    (∃ d, ⟨s.requests, s.scopeName, some d⟩ ∈ s.pending ∧
      s.poll = { settle s.requests s.scopeName d s with
        pending := s.unanswered, polling := !s.unanswered.isEmpty }) ∨
    (∀ r ∈ s.pending, r.number = s.requests → r.delivery = none) ∧
      s.poll = { s with pending := s.unanswered, polling := !s.unanswered.isEmpty } := by
  by_cases hnone : ∀ r ∈ s.pending, r.number = s.requests → r.delivery = none
  · exact Or.inr ⟨hnone, poll_eq h.looking (settleEach_of_none hnone) rfl rfl⟩
  · push Not at hnone
    obtain ⟨⟨number, scopeName, delivery⟩, hr, hnumber, hdelivery⟩ := hnone
    obtain ⟨d, rfl⟩ := Option.ne_none_iff_exists'.mp hdelivery
    obtain rfl : number = s.requests := hnumber
    obtain rfl : scopeName = s.scopeName := h.latest _ hr rfl
    have hledger := ledger_settle s.scopeName d s
    exact Or.inl ⟨d, hr, poll_eq h.looking (settleEach_of_mem h.sorted hr)
      (congrArg Ledger.pending hledger) (congrArg Ledger.polling hledger)⟩

/-- The ledger after a look that has settled the last request. -/
theorem ledger_poll_of_mem (hpoll : s.poll = { settle s.requests s.scopeName d s with
    pending := s.unanswered, polling := !s.unanswered.isEmpty }) :
    s.poll.ledger = { s.ledger with
      pending := s.unanswered, polling := !s.unanswered.isEmpty, tokenizer? := d.tokenizer? } := by
  rw [hpoll]
  show ({ (settle s.requests s.scopeName d s).ledger with
    pending := s.unanswered, polling := !s.unanswered.isEmpty } : Ledger) = _
  rw [ledger_settle]

/-! ## Deliveries -/

/-- A delivery is noted for a pending request that has none, and changes nothing else. -/
theorem mem_pending_deliver {number : Nat} {r : GrammarRequest}
    (h : r ∈ (deliver number d s).pending) :
    r ∈ s.pending ∨ r.delivery = some d ∧ r.number = number ∧
      ⟨number, r.scopeName, none⟩ ∈ s.pending := by
  obtain ⟨r₀, hr₀, rfl⟩ := List.mem_map.mp h
  split
  next hpending =>
    obtain ⟨rfl, hnone⟩ := hpending
    refine Or.inr ⟨rfl, rfl, ?_⟩
    rw [Option.isNone_iff_eq_none] at hnone
    rw [← hnone]
    exact hr₀
  · exact Or.inl hr₀

/-- A delivery changes neither the numbers nor the scope names of requests. -/
theorem keys_deliver (number : Nat) (d : Delivery) (s : Session) :
    ((deliver number d s).pending.map fun r => (r.number, r.scopeName)) =
      s.pending.map fun r => (r.number, r.scopeName) := by
  unfold deliver
  rw [List.map_map]
  refine List.map_congr_left fun r _ => ?_
  simp only [Function.comp_apply]
  split <;> rfl

/-- A delivery does not end that a request is pending. -/
theorem exists_pending_deliver (number : Nat) (d : Delivery) {r : GrammarRequest}
    (h : r ∈ s.pending) : ∃ r' ∈ (deliver number d s).pending, r'.number = r.number := by
  have hkey : (r.number, r.scopeName) ∈ (deliver number d s).pending.map
      fun r => (r.number, r.scopeName) := keys_deliver number d s ▸ List.mem_map_of_mem h
  obtain ⟨r', hr', heq⟩ := List.mem_map.mp hkey
  exact ⟨r', hr', congrArg Prod.fst heq⟩

/-- A delivery keeps the requests in order. -/
theorem counted_deliver (h : s.ledger.Counted) (number : Nat) (d : Delivery) :
    (deliver number d s).ledger.Counted := by
  refine h.of_sublist rfl rfl (keys_deliver number d s ▸ List.Sublist.refl _) fun hne => ?_
  exact h.looking fun hnil => hne (congrArg (List.map _) hnil)

/-- A look at the deliveries leaves the requests without one. -/
theorem unanswered_sublist (s : Session) : s.unanswered.Sublist s.pending := List.filter_sublist

/-- Looking for deliveries keeps the requests in order. -/
theorem counted_poll (h : s.ledger.Counted) : s.poll.ledger.Counted := by
  have hsub := (unanswered_sublist s).map fun r => (r.number, r.scopeName)
  have hlooking : s.unanswered ≠ [] → (!s.unanswered.isEmpty) = true := by simp
  rcases poll_cases h with ⟨d, -, hpoll⟩ | ⟨-, hpoll⟩
  · rw [ledger_poll_of_mem hpoll]
    exact h.of_sublist rfl rfl hsub hlooking
  · rw [hpoll]
    exact h.of_sublist rfl rfl hsub hlooking

/-! ## Whole runs -/

variable {s₀ : Session} {events : List Event} {l : Ledger}

/-- A delivery came for a request that was waited for. -/
def Came (s₀ : Session) (events : List Event) (number : Nat) (scopeName : String) (d : Delivery) :
    Prop :=
  ∃ before after, events = before ++ .delivered number d :: after ∧
    ⟨number, scopeName, none⟩ ∈ (s₀.run before).pending

/-- A delivery for the last request was taken up, and the tokenizer is the one that it brought, or
there is none since an update has found that one to fail. -/
def Answered (s₀ : Session) (events : List Event) (l : Ledger) : Prop :=
  ∃ before after d, events = before ++ .polled :: after ∧
    (s₀.run before).requests = l.requests ∧
    ⟨l.requests, l.scopeName, some d⟩ ∈ (s₀.run before).pending ∧
    Came s₀ before l.requests l.scopeName d ∧
    (l.tokenizer? = d.tokenizer? ∨
      l.tokenizer? = none ∧ ∃ mid rest, after = mid ++ .pauseOver :: rest ∧
        let s := s₀.run (before ++ .polled :: mid)
        s.requests = l.requests ∧ s.tokenizer? = d.tokenizer? ∧ s.TokenizerFails)

/-- A delivery that came has come. -/
theorem Came.concat {number : Nat} (h : Came s₀ events number scopeName d) (e : Event) :
    Came s₀ (events ++ [e]) number scopeName d := by
  obtain ⟨before, after, rfl, hpending⟩ := h
  exact ⟨before, after ++ [e], by simp, hpending⟩

/-- An answer stays the answer, or the tokenizer was dropped since. -/
theorem Answered.concat (h : Answered s₀ events l) (e : Event) {l' : Ledger}
    (hrequests : l'.requests = l.requests) (hscopeName : l'.scopeName = l.scopeName)
    (htokenizer : l'.tokenizer? = l.tokenizer?) : Answered s₀ (events ++ [e]) l' := by
  obtain ⟨before, after, d, rfl, hcount, hpending, hcame, hstate⟩ := h
  rw [← hrequests, ← hscopeName] at hpending hcame
  rw [← hrequests] at hcount
  refine ⟨before, after ++ [e], d, by simp, hcount, hpending, hcame, ?_⟩
  rw [htokenizer, hrequests]
  refine hstate.imp_right fun ⟨hnone, mid, rest, hafter, hfailed⟩ => ?_
  exact ⟨hnone, mid, rest ++ [e], by rw [hafter]; simp, hfailed⟩

/-- What holds of the requests after events. -/
structure Orderly (s₀ : Session) (events : List Event) (l : Ledger) : Prop where
  counted : l.Counted
  came : ∀ r ∈ l.pending, ∀ d, r.delivery = some d → Came s₀ events r.number r.scopeName d
  unnamed : l.scopeName = "" → l.tokenizer? = none
  latest : l.scopeName ≠ "" → (∃ r ∈ l.pending, r.number = l.requests) ∨ Answered s₀ events l

theorem run_concat (s₀ : Session) (events : List Event) (e : Event) :
    s₀.run (events ++ [e]) = Step.after (handle e) (s₀.run events) := run_append s₀ events [e]

/-- New requests leave everything in order; none of them is answered yet. -/
theorem Orderly.asks (h : Orderly s₀ events l) (scopeNames : List String) (e : Event) :
    Orderly s₀ (events ++ [e]) (scopeNames.foldl Ledger.ask l) := by
  have hcases := l.asks_cases scopeNames
  refine ⟨h.counted.asks scopeNames, fun r hr d hdelivery => ?_, fun hempty => ?_, fun hname => ?_⟩
  · rcases Ledger.mem_pending_asks hr with hold | hnone
    · exact (h.came r hold d hdelivery).concat e
    · rw [hnone] at hdelivery
      cases hdelivery
  · rcases hcases with hsame | ⟨-, hnone⟩ | ⟨hname, -⟩
    · rw [hsame] at hempty ⊢
      exact h.unnamed hempty
    · exact hnone
    · exact absurd hempty hname
  · rcases hcases with hsame | ⟨hempty, -⟩ | ⟨-, hlatest⟩
    · rw [hsame] at hname ⊢
      exact (h.latest hname).imp_right fun hanswered => hanswered.concat e rfl rfl rfl
    · exact absurd hempty hname
    · exact Or.inl hlatest

/-- An update has found the tokenizer to fail. -/
theorem Orderly.drops (h : Orderly s₀ events (s₀.run events).ledger)
    (hfails : (s₀.run events).TokenizerFails) :
    Orderly s₀ (events ++ [.pauseOver]) { (s₀.run events).ledger with tokenizer? := none } := by
  refine ⟨⟨h.counted.sorted, h.counted.bounded, h.counted.named, h.counted.latest,
    h.counted.looking⟩, fun r hr d hdelivery => (h.came r hr d hdelivery).concat _, fun _ => rfl,
    fun hname => (h.latest hname).imp_right ?_⟩
  rintro ⟨before, after, d, hevents, hrequests, hpending, hcame, hstate⟩
  refine ⟨before, after ++ [.pauseOver], d, by simp [hevents], hrequests, hpending, hcame,
    Or.inr ⟨rfl, ?_⟩⟩
  rcases hstate with hstate | ⟨-, mid, rest, hafter, hfailed⟩
  · -- the tokenizer was there until now
    rw [hevents] at hstate hfails ⊢
    exact ⟨after, [], rfl, rfl, hstate, hfails⟩
  · exact ⟨mid, rest ++ [.pauseOver], by simp [hafter], hfailed⟩

/-- A delivery leaves everything in order: it is noted if somebody waits for it. -/
theorem Orderly.notes (h : Orderly s₀ events (s₀.run events).ledger) (number : Nat)
    (d : Delivery) :
    Orderly s₀ (events ++ [.delivered number d]) (deliver number d (s₀.run events)).ledger := by
  refine ⟨counted_deliver h.counted number d, fun r hr d' hdelivery => ?_, h.unnamed,
    fun hname => ?_⟩
  · rcases mem_pending_deliver hr with hold | ⟨hnew, rfl, hpending⟩
    · exact (h.came r hold d' hdelivery).concat _
    · obtain rfl : d = d' := Option.some.inj (hnew.symm.trans hdelivery)
      exact ⟨events, [], rfl, hpending⟩
  · refine (h.latest hname).imp (fun ⟨r, hr, hnumber⟩ => ?_) fun hanswered =>
      hanswered.concat _ rfl rfl rfl
    obtain ⟨r', hr', hsame⟩ := exists_pending_deliver number d hr
    exact ⟨r', hr', hsame.trans hnumber⟩

/-- Taking up deliveries leaves everything in order: only the last request's counts. -/
theorem Orderly.takesUp (h : Orderly s₀ events (s₀.run events).ledger) :
    Orderly s₀ (events ++ [.polled]) (s₀.run events).poll.ledger := by
  have hsub := unanswered_sublist (s₀.run events)
  have hcounted := counted_poll h.counted
  rcases poll_cases h.counted with ⟨d, hr, hpoll⟩ | ⟨hnone, hpoll⟩
  · rw [ledger_poll_of_mem hpoll] at hcounted ⊢
    have hname : (s₀.run events).scopeName ≠ "" := h.counted.named _ hr
    refine ⟨hcounted, fun r hr d hdelivery => ?_, fun hempty => absurd hempty hname,
      fun _ => Or.inr ?_⟩
    · exact (h.came r (hsub.subset hr) d hdelivery).concat _
    · exact ⟨events, [], d, rfl, rfl, hr, h.came _ hr d rfl, Or.inl rfl⟩
  · rw [hpoll] at hcounted ⊢
    refine ⟨hcounted, fun r hr d hdelivery => ?_, h.unnamed, fun hname => ?_⟩
    · exact (h.came r (hsub.subset hr) d hdelivery).concat _
    · refine (h.latest hname).imp (fun ⟨r, hr, hnumber⟩ => ?_) fun hanswered =>
        hanswered.concat _ rfl rfl rfl
      -- the last request has no delivery, so it is still waited for
      refine ⟨r, List.mem_filter.mpr ⟨hr, ?_⟩, hnumber⟩
      rw [hnone r hr hnumber]
      rfl

/-- Every event but the end leaves everything in order. -/
theorem Orderly.handle {e : Event} (h : Orderly s₀ events (s₀.run events).ledger)
    (he : e ≠ .closed) :
    Orderly s₀ (events ++ [e]) (s₀.run (events ++ [e])).ledger := by
  have hrecords := records_handle he (s₀.run events)
  rw [run_concat]
  generalize (Step.after (Session.handle e) (s₀.run events)).ledger = l at hrecords ⊢
  cases hrecords with
  | asks scopeNames => exact h.asks scopeNames e
  | drops hfails => exact h.drops hfails
  | notes number d => exact h.notes number d
  | takesUp => exact h.takesUp

/-- A session starts with no request and no tokenizer. -/
theorem ledger_of_start {settings : Json} {languages : String → Option String} {desk : Desk}
    (h : start settings languages desk = .ok s₀) : s₀.ledger = ⟨0, "", [], false, none⟩ := by
  unfold start at h
  cases hsettings : Settings.normalize settings with
  | error fault => rw [hsettings] at h; cases h
  | ok members => rw [hsettings] at h; cases h; rfl

/-- Everything is in order after any events before the end. -/
theorem orderly_run {settings : Json} {languages : String → Option String} {desk : Desk}
    (hstart : start settings languages desk = .ok s₀) (hopen : ∀ e ∈ events, e ≠ .closed) :
    Orderly s₀ events (s₀.run events).ledger := by
  have hledger := ledger_of_start hstart
  induction events using List.reverseRecOn with
  | nil =>
    show Orderly s₀ [] s₀.ledger
    rw [hledger]
    exact ⟨⟨.nil, by simp, by simp, by simp, fun h => absurd rfl h⟩, by simp, fun _ => rfl,
      fun h => absurd rfl h⟩
  | append_singleton events e ih =>
    refine (ih fun e he => hopen e (List.mem_append_left _ he)).handle ?_
    exact hopen e (List.mem_append_right _ List.mem_cons_self)

/-- The last request wins, in whatever order requests, deliveries and looks at them come.

A delivery that comes in is only noted. A look at the deliveries settles the last request if it has
one, and else changes nothing but which requests are pending: what was delivered for earlier
requests is left out. No event brings a tokenizer in another way. Where the last request was for no
scope name, there is no tokenizer. Otherwise it is still pending; or its delivery has come and was
taken up, and the tokenizer is the one that it brought, or there is none since that one has failed
with the document. -/
theorem last_request_wins {settings : Json} {languages : String → Option String} {desk : Desk}
    (hstart : start settings languages desk = .ok s₀) (hopen : ∀ e ∈ events, e ≠ .closed) :
    let s := s₀.run events
    (∀ r ∈ s.pending, r.number ≤ s.requests) ∧
    (∀ number d, deliver number d s = { s with pending := (deliver number d s).pending }) ∧
    ((∃ d, ⟨s.requests, s.scopeName, some d⟩ ∈ s.pending ∧
        s.poll = { settle s.requests s.scopeName d s with
          pending := s.unanswered, polling := !s.unanswered.isEmpty }) ∨
      (∀ r ∈ s.pending, r.number = s.requests → r.delivery = none) ∧
        s.poll = { s with pending := s.unanswered, polling := !s.unanswered.isEmpty }) ∧
    (∀ e t, e ≠ .closed → (Step.after (Session.handle e) s).tokenizer? = some t →
      s.tokenizer? = some t ∨
        e = .polled ∧ ⟨s.requests, s.scopeName, some (.found t)⟩ ∈ s.pending) ∧
    (s.scopeName = "" → s.tokenizer? = none) ∧
    (s.scopeName ≠ "" →
      (∃ r ∈ s.pending, r.number = s.requests) ∨ Answered s₀ events s.ledger) := by
  intro s
  have h := orderly_run hstart hopen
  refine ⟨h.counted.bounded, fun number d => rfl, poll_cases h.counted, fun e t he ht => ?_,
    h.unnamed, h.latest⟩
  -- what an event records in the ledger is all that the tokenizer depends on
  have hrecords := records_handle he s
  change (Step.after (Session.handle e) s).ledger.tokenizer? = some t at ht
  generalize (Step.after (Session.handle e) s).ledger = l at hrecords ht
  cases hrecords with
  | asks scopeNames => exact Or.inl (Ledger.tokenizer_of_asks ht)
  | drops => cases ht
  | notes => exact Or.inl ht
  | takesUp =>
    rcases poll_cases h.counted with ⟨d, hr, hpoll⟩ | ⟨-, hpoll⟩
    · -- only a delivery that was found brings one
      rw [ledger_poll_of_mem hpoll] at ht
      cases d with
      | found t' =>
        obtain rfl := Option.some.inj ht
        exact Or.inr ⟨rfl, hr⟩
      | missing => cases ht
      | failed => cases ht
    · rw [hpoll] at ht
      exact Or.inl ht

/-- A tokenizer that finds one token in every line. -/
def lineTokenizer (serial : Nat) : Tokenizer where
  serial
  scopeName := "text"
  tokenize line previous := .ok ⟨[⟨0, line.toList.length, ["text"]⟩], previous.getD ⟨[]⟩⟩

/-- Two requests, whose deliveries come in the other order. -/
def overlapping : List Event :=
  [.turnTo (some "e"), .told .saved, .delivered 2 (.found (lineTokenizer 2)),
    .delivered 1 (.found (lineTokenizer 1))]

/-- Two requests overlap, and the second one's grammar is taken, though it comes first. -/
theorem second_wins : ∃ s₀, start (.obj []) (fun _ => some "text") Desk.twoLetters = .ok s₀ ∧
    (∀ e ∈ overlapping, e ≠ .closed) ∧
    (s₀.run overlapping).poll.tokenizer? = some (lineTokenizer 2) ∧
    (s₀.run overlapping).poll.pending = [] := by
  have hsettings : (Settings.normalize (.obj [])).toOption.isSome = true := by decide +kernel
  cases hmembers : Settings.normalize (.obj []) with
  | error fault => rw [hmembers] at hsettings; cases hsettings
  | ok members =>
    let s₀ : Session :=
      { settings := members, languages := fun _ => some "text",
        masking.decorations.desk := Desk.twoLetters }
    have hstart : start (.obj []) (fun _ => some "text") Desk.twoLetters = .ok s₀ := by
      unfold start
      rw [hmembers]
      rfl
    have hopen : ∀ e ∈ overlapping, e ≠ .closed := by
      intro e he
      simp only [overlapping, List.mem_cons, List.not_mem_nil, or_false] at he
      rcases he with rfl | rfl | rfl | rfl <;> exact fun h => by cases h
    have hrequests : (s₀.run overlapping).requests = 2 := by rfl
    have hpending : (s₀.run overlapping).pending =
        [⟨1, "text", some (.found (lineTokenizer 1))⟩,
          ⟨2, "text", some (.found (lineTokenizer 2))⟩] := by rfl
    obtain ⟨-, -, hpoll, -⟩ := last_request_wins hstart hopen
    refine ⟨s₀, hstart, hopen, ?_⟩
    rw [hrequests, hpending] at hpoll
    rcases hpoll with ⟨d, hd, hpoll⟩ | ⟨hnone, -⟩
    · -- the first delivery is for another number
      obtain ⟨-, rfl⟩ : (s₀.run overlapping).scopeName = "text" ∧ d = .found (lineTokenizer 2) := by
        simpa using hd
      rw [hpoll]
      exact ⟨rfl, rfl⟩
    · have hsecond := hnone ⟨2, "text", some (.found (lineTokenizer 2))⟩ (by simp) rfl
      cases hsecond

end Session

end Conceal
