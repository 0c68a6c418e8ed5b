import Conceal.Session.Basic

/-!
Which grammar a session uses. A request gets a number; its delivery is taken up by the next look at
the pending requests, and only if no later request was made.
-/

namespace Conceal.Session

/-- Uses a tokenizer, or none. -/
def useTokenizer (t : Option Tokenizer) (scopeName : String) (s : Session) : Session :=
  announce (.grammarChanged scopeName)
    { s with
      masking.scopes :=
        match t with
        | some _ => s.masking.scopes.setTokenizer t
        | none => s.masking.scopes.clearTokenizer
      stale := true }

/-- Asks for the grammar of a scope name. -/
def request (scopeName : String) (s : Session) : Session :=
  { s with
    pending := s.pending ++ [{ number := s.requests, scopeName }]
    asked := s.asked ++ [(s.requests, scopeName)]
    polling := true }

/-- Asks for the grammar of the document's language; one without a grammar uses none at once. -/
def requestGrammar : Step Session Unit := do
  modify fun s => { s with requests := s.requests + 1 }
  let s ← get
  let document ←
    match s.editor? with
    | some name => if s.desk.isAlive name then onDesk (Desk.snapshot name) else pure none
    | none => pure none
  let scopeName := ((document.bind fun d => s.languages d.languageId)).getD ""
  modify fun s => { s with scopeName }
  if scopeName = "" then modify (useTokenizer none "")
  else modify (request scopeName)

/-- Delivers the answer to a request, if it is still pending. -/
def deliver (number : Nat) (d : Delivery) (s : Session) : Session :=
  { s with pending := s.pending.map fun r =>
      if r.number = number ∧ r.delivery.isNone then { r with delivery := some d } else r }

/-- Takes up a delivery, unless a later request was made. -/
def settle (number : Nat) (scopeName : String) (d : Delivery) (s : Session) : Session :=
  if number ≠ s.requests then s
  else
    schedule
      (match d with
      | .found t => useTokenizer (some t) scopeName s
      | .missing =>
        useTokenizer none "" { s with masking.notices := s.masking.notices ++ [.grammarUnknown] }
      | .failed =>
        useTokenizer none "" { s with masking.notices := s.masking.notices ++ [.grammarNotLoaded] })

/-- Takes up deliveries in the order of the requests. -/
def settleEach : List GrammarRequest → Session → Session
  | [], s => s
  | r :: rest, s =>
    match r.delivery with
    | some d => settleEach rest (settle r.number r.scopeName d s)
    | none => settleEach rest s

/-- Looks at the pending requests: takes up what was delivered, and stops looking when nothing is
left. -/
def drain (s : Session) : Session :=
  let t := settleEach s.pending s
  let pending := t.pending.filter (·.delivery.isNone)
  { t with pending, polling := t.polling && !pending.isEmpty }

/-- The timer that looks for deliveries goes off, if it is running. -/
def poll (s : Session) : Session := if s.polling then s.drain else s

/-- Hands out the requests that nobody looks after yet. -/
def takeAsked (s : Session) : List (Nat × String) × Session := (s.asked, { s with asked := [] })

end Conceal.Session
