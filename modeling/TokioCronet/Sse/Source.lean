import TokioCronet.Sse.Chunks
import TokioCronet.Types

/-!
# The event source

`EventSource` of `sse.rs`: a response body, the parser it is pushed through and the
events that `next_event` has not returned yet. When the body ends or fails, an event
source that reconnects sends a new request, with the last event id in a header, and
goes on with the body of the new response. The network is a script of the answers
the requests get.

URLs, methods and headers are checked once, where they enter; a checked string
carries the check with it.
-/

namespace TokioCronet.Sse

/-- A string that `CString::new` accepts. -/
abbrev CString := { value : Str // value.contains 0 = false }

/-- `validate_string` -/
def validateString (value : Str) (field : String) : Result CString :=
  if h : value.contains 0 = false then .ok ⟨value, h⟩ else .error (.invalidString field)

/-- `usize::MAX` -/
def usizeMax : Nat := 2 ^ 64 - 1

/-- The part of `Request` an event source sets. -/
structure SseRequest where
  url : CString
  method : Option CString
  headers : List (CString × CString)
  disableCache : Bool
  maxResponseBytes : Nat
  deriving DecidableEq

namespace SseRequest

/-- `Request::builder` -/
def builder (url : Str) : Result SseRequest := do
  let url ← validateString url "URL"
  return { url := url, method := none, headers := [], disableCache := false,
           maxResponseBytes := 64 * 1024 * 1024 }

/-- `RequestBuilder::method` -/
def withMethod (r : SseRequest) (method : Str) : Result SseRequest := do
  let method ← validateString method "HTTP method"
  return { r with method := some method }

/-- `RequestBuilder::header` -/
def header (r : SseRequest) (name value : Str) : Result SseRequest := do
  let name ← validateString name "header name"
  let value ← validateString value "header value"
  return { r with headers := r.headers ++ [(name, value)] }

end SseRequest

/-- What `next_chunk` returns of a response body until it returns `None`. -/
abbrev Body := List (Result (List UInt8))

/-- What `engine.send` answers to the requests to come, and the requests it was given;
a request with no answer waits. -/
structure Network where
  responses : List (Result Body)
  requests : List SseRequest

/-- `Engine::send` -/
def Network.send (net : Network) (request : SseRequest) : Option (Result Body) × Network :=
  match net.responses with
  | [] => (none, { net with requests := net.requests ++ [request] })
  | response :: responses =>
    (some response, { responses := responses, requests := net.requests ++ [request] })

/-- A live response that yields events. -/
structure EventSource where
  url : CString
  headers : List (CString × CString)
  body : Option Body
  parser : SseParser
  autoReconnect : Bool
  retry : Nat
  pending : List SseEvent

/-- Builder for an event-stream request. -/
structure EventSourceBuilder where
  request : SseRequest
  lastEventId : Option Str
  autoReconnect : Bool
  retry : Nat

namespace EventSourceBuilder

/-- `EventSourceBuilder::new` -/
def new (url : Str) : Result EventSourceBuilder := do
  let request ← SseRequest.builder url
  let request ← request.withMethod (str "GET")
  let request ← request.header (str "accept") (str "text/event-stream")
  let request ← request.header (str "cache-control") (str "no-cache")
  return { request := { request with disableCache := true, maxResponseBytes := usizeMax },
           lastEventId := none, autoReconnect := false, retry := 3000 }

/-- The request of `open`, with a header for the id to start from. -/
def openRequest (b : EventSourceBuilder) : Result SseRequest :=
  match b.lastEventId with
  | some id => b.request.header (str "last-event-id") id
  | none => .ok b.request

/-- `open`; `none` waits for the answer. -/
def openSource (b : EventSourceBuilder) (net : Network) : Option (Result EventSource) × Network :=
  match b.openRequest with
  | .error e => (some (.error e), net)
  | .ok built =>
    match net.send built with
    | (none, net) => (none, net)
    | (some (.error e), net) => (some (.error e), net)
    | (some (.ok body), net) =>
      (some (.ok { url := built.url, headers := built.headers, body := some body,
                   parser := { lastId := b.lastEventId }, autoReconnect := b.autoReconnect,
                   retry := b.retry, pending := [] }), net)

end EventSourceBuilder

namespace EventSource

/-- One item of the parser; an event waits behind those before it. -/
def accept (s : EventSource) : ParseOutput → EventSource
  | .event event => { s with pending := event :: s.pending }
  | .retry retry => { s with retry := retry }

/-- `ingest` -/
def ingest (s : EventSource) (chunk : List UInt8) : EventSource :=
  (s.parser.push chunk).1.foldl accept { s with parser := (s.parser.push chunk).2 }

/-- The request of `reconnect`. -/
def reconnectRequest (s : EventSource) : Result SseRequest := do
  let request ← SseRequest.builder s.url.val
  let request ← request.withMethod (str "GET")
  let request := { request with disableCache := true, maxResponseBytes := usizeMax }
  let request ← s.headers.foldlM (fun r h => r.header h.1.val h.2.val) request
  match s.parser.lastId with
  | some id => request.header (str "last-event-id") id
  | none => return request

/-- `reconnect`; `none` waits for the answer. The old body is dropped first. -/
def reconnect (s : EventSource) (net : Network) :
    Option (Result Unit) × EventSource × Network :=
  match s.reconnectRequest with
  | .error e => (some (.error e), { s with body := none }, net)
  | .ok request =>
    match net.send request with
    | (none, net) => (none, { s with body := none }, net)
    | (some (.error e), net) => (some (.error e), { s with body := none }, net)
    | (some (.ok body), net) => (some (.ok ()), { s with body := some body }, net)

/-- How one round of the loop in `next_event` ends. -/
inductive Round where
  | ready (item : Option (Result SseEvent))
  | again
  | waiting
  deriving DecidableEq

/-- The body has ended, or failed. -/
def ended (s : EventSource) (failure : Option Error) (net : Network) :
    Round × EventSource × Network :=
  if s.autoReconnect then
    match s.reconnect net with
    | (none, s, net) => (.waiting, s, net)
    | (some (.error e), s, net) => (.ready (some (.error e)), s, net)
    | (some (.ok ()), s, net) => (.again, s, net)
  else (.ready (failure.map .error), s, net)

/-- One round of the loop in `next_event`. -/
def round (s : EventSource) (net : Network) : Round × EventSource × Network :=
  match s.pending.getLast? with
  | some event => (.ready (some (.ok event)), { s with pending := s.pending.dropLast }, net)
  | none =>
    match s.body with
    | none => (.ready none, s, net)
    | some [] => s.ended none net
    | some (.error e :: items) => ({ s with body := some items }).ended (some e) net
    | some (.ok chunk :: items) => (.again, ({ s with body := some items }).ingest chunk, net)

/-- How many rounds can go round again before the script is used up. -/
def supply (s : EventSource) (net : Network) : Nat :=
  (s.body.elim 0 List.length) +
    (net.responses.map fun response =>
      match response with
      | .ok body => body.length + 1
      | .error _ => 1).sum

/-- At most `n` rounds. -/
def rounds : Nat → EventSource → Network →
    Option (Option (Result SseEvent)) × EventSource × Network
  | 0, s, net => (none, s, net)
  | n + 1, s, net =>
    match s.round net with
    | (.ready item, s, net) => (some item, s, net)
    | (.waiting, s, net) => (none, s, net)
    | (.again, s, net) => rounds n s net

/-- `next_event`; `none` waits for the network. -/
def nextEvent (s : EventSource) (net : Network) :
    Option (Option (Result SseEvent)) × EventSource × Network :=
  rounds (s.supply net + 1) s net

/-! ## Rounds and calls -/

variable {s s' : EventSource} {net net' : Network}

theorem accept_other (s : EventSource) (item : ParseOutput) :
    (s.accept item).body = s.body ∧ (s.accept item).parser = s.parser ∧
      (s.accept item).autoReconnect = s.autoReconnect ∧ (s.accept item).url = s.url ∧
      (s.accept item).headers = s.headers := by
  cases item <;> exact ⟨rfl, rfl, rfl, rfl, rfl⟩

theorem foldl_accept_other (items : List ParseOutput) : ∀ s : EventSource,
    (items.foldl accept s).body = s.body ∧ (items.foldl accept s).parser = s.parser ∧
      (items.foldl accept s).autoReconnect = s.autoReconnect ∧
      (items.foldl accept s).url = s.url ∧ (items.foldl accept s).headers = s.headers := by
  induction items with
  | nil => intro s; exact ⟨rfl, rfl, rfl, rfl, rfl⟩
  | cons item items ih =>
    intro s
    obtain ⟨hb, hp, ha, hu, hh⟩ := ih (s.accept item)
    obtain ⟨hb', hp', ha', hu', hh'⟩ := accept_other s item
    exact ⟨hb.trans hb', hp.trans hp', ha.trans ha', hu.trans hu', hh.trans hh'⟩

/-- A chunk reaches the parser; only it, the waiting events and the retry time change. -/
theorem ingest_other (s : EventSource) (chunk : List UInt8) :
    (s.ingest chunk).body = s.body ∧ (s.ingest chunk).parser = (s.parser.push chunk).2 ∧
      (s.ingest chunk).autoReconnect = s.autoReconnect ∧ (s.ingest chunk).url = s.url ∧
      (s.ingest chunk).headers = s.headers :=
  foldl_accept_other (s.parser.push chunk).1 { s with parser := (s.parser.push chunk).2 }

/-- **What a round can do.** -/
theorem round_cases {r : Round} (h : s.round net = (r, s', net')) :
    (∃ events event, s.pending = events ++ [event] ∧ r = .ready (some (.ok event)) ∧
      s' = { s with pending := events } ∧ net' = net) ∨
    (s.pending = [] ∧ s.body = none ∧ r = .ready none ∧ s' = s ∧ net' = net) ∨
    (s.pending = [] ∧ ∃ chunk items, s.body = some (.ok chunk :: items) ∧ r = .again ∧
      s' = ({ s with body := some items }).ingest chunk ∧ net' = net) ∨
    (s.pending = [] ∧ ∃ failure items, s.body = some items ∧ items.head? = failure.map .error ∧
      ({ s with body := some items.tail }).ended failure net = (r, s', net')) := by
  unfold round at h
  split at h
  · rename_i event hlast
    obtain ⟨events, hevents⟩ := List.getLast?_eq_some_iff.mp hlast
    cases h
    refine .inl ⟨events, event, hevents, rfl, ?_, rfl⟩
    rw [hevents, List.dropLast_concat]
  · rename_i hlast
    have hnil : s.pending = [] := List.getLast?_eq_none_iff.mp hlast
    refine .inr ?_
    split at h
    · rename_i hbody
      cases h
      exact .inl ⟨hnil, hbody, rfl, rfl, rfl⟩
    · rename_i hbody
      refine .inr (.inr ⟨hnil, none, [], hbody, rfl, ?_⟩)
      rw [← h, List.tail_nil, ← hbody]
    · rename_i e items hbody
      exact .inr (.inr ⟨hnil, some e, .error e :: items, hbody, rfl, h⟩)
    · rename_i chunk items hbody
      cases h
      exact .inr (.inl ⟨hnil, chunk, items, hbody, rfl, rfl, rfl⟩)

/-- **What a reconnect can do.** Only the body changes. -/
theorem reconnect_cases {r : Option (Result Unit)} (h : s.reconnect net = (r, s', net')) :
    (∃ body, r = some (.ok ()) ∧ s' = { s with body := some body } ∧
      net.responses = .ok body :: net'.responses) ∨
    (r ≠ some (.ok ()) ∧ s' = { s with body := none }) := by
  unfold reconnect at h
  split at h
  · cases h
    exact .inr ⟨by simp, rfl⟩
  · rename_i request hrequest
    unfold Network.send at h
    split at h
    · cases h
      exact .inr ⟨by simp, rfl⟩
    · cases h
      exact .inr ⟨by simp, rfl⟩
    · rename_i body net₂ hsend
      cases h
      refine .inl ⟨body, rfl, rfl, ?_⟩
      split at hsend
      · cases hsend
      · rename_i response responses hresponses
        cases hsend
        exact hresponses

/-- **What the end of the body can do.** Only the body changes, and the loop goes
round again with the body of a new response alone. -/
theorem ended_cases {r : Round} {failure : Option Error}
    (h : s.ended failure net = (r, s', net')) :
    (∃ body, r = .again ∧ s' = { s with body := some body } ∧
      net.responses = .ok body :: net'.responses) ∨
    (r ≠ .again ∧ (∀ event, r ≠ .ready (some (.ok event))) ∧
      ∃ body, s' = { s with body := body }) := by
  unfold ended at h
  split at h
  · split at h
    · rename_i s₁ net₁ hre
      cases h
      rcases reconnect_cases hre with ⟨body, hr, -⟩ | ⟨-, hs⟩
      · cases hr
      · exact .inr ⟨by simp, by simp, none, hs⟩
    · rename_i e s₁ net₁ hre
      cases h
      rcases reconnect_cases hre with ⟨body, hr, -⟩ | ⟨-, hs⟩
      · cases hr
      · exact .inr ⟨by simp, by simp, none, hs⟩
    · rename_i s₁ net₁ hre
      cases h
      rcases reconnect_cases hre with ⟨body, -, hs, hnet⟩ | ⟨hr, -⟩
      · exact .inl ⟨body, rfl, hs, hnet⟩
      · exact absurd rfl hr
  · cases h
    refine .inr ⟨by simp, ?_, s.body, rfl⟩
    intro event hbad
    cases failure <;> simp at hbad

/-- Going round again uses up the script. -/
theorem supply_lt (h : s.round net = (.again, s', net')) : s'.supply net' < s.supply net := by
  rcases round_cases h with
    ⟨_, _, _, hr, -⟩ | ⟨-, -, hr, -⟩ | ⟨-, chunk, items, hbody, -, rfl, rfl⟩ |
    ⟨-, failure, items, hbody, -, hended⟩
  · cases hr
  · cases hr
  · have hb := (ingest_other { s with body := some items } chunk).1
    simp only [supply, hb, hbody, Option.elim_some, List.length_cons]
    omega
  · rcases ended_cases hended with ⟨body, -, rfl, hnet⟩ | ⟨hr, -⟩
    · simp only [supply, hbody, hnet, Option.elim_some, List.map_cons, List.sum_cons]
      omega
    · exact absurd rfl hr

/-- The script bounds the rounds of a call. -/
theorem rounds_of_supply_lt {n m : ℕ} : ∀ {s : EventSource} {net : Network},
    s.supply net < n → s.supply net < m → rounds n s net = rounds m s net := by
  induction n generalizing m with
  | zero => intro s net hn _; omega
  | succ n ih =>
    intro s net hn hm
    obtain ⟨m, rfl⟩ : ∃ m', m = m' + 1 := ⟨m - 1, by omega⟩
    rw [rounds, rounds]
    rcases hround : s.round net with ⟨r, s', net'⟩
    cases r with
    | ready item => rfl
    | waiting => rfl
    | again =>
      have hlt := supply_lt hround
      exact ih (by omega) (by omega)

theorem nextEvent_ready {item : Option (Result SseEvent)}
    (h : s.round net = (.ready item, s', net')) : s.nextEvent net = (some item, s', net') := by
  rw [nextEvent, rounds, h]

theorem nextEvent_waiting (h : s.round net = (.waiting, s', net')) :
    s.nextEvent net = (none, s', net') := by
  rw [nextEvent, rounds, h]

theorem nextEvent_again (h : s.round net = (.again, s', net')) :
    s.nextEvent net = s'.nextEvent net' := by
  have hlt := supply_lt h
  rw [nextEvent, rounds, h]
  exact rounds_of_supply_lt (by omega) (by omega)

/-- The events that the calls of `next_event` return one after another, until one
waits for the network, reports an error or says that there are no more. -/
inductive Returns : EventSource → Network → List SseEvent → Prop
  | stops {s : EventSource} {net : Network} :
      (∀ event, (s.nextEvent net).1 ≠ some (some (.ok event))) → Returns s net []
  | event {s s' : EventSource} {net net' : Network} {event : SseEvent} {events : List SseEvent} :
      s.nextEvent net = (some (some (.ok event)), s', net') →
      Returns s' net' events → Returns s net (event :: events)

theorem Returns.unique {events events' : List SseEvent} (h : Returns s net events)
    (h' : Returns s net events') : events = events' := by
  induction h generalizing events' with
  | stops hstop =>
    cases h' with
    | stops => rfl
    | event hcall =>
      rw [hcall] at hstop
      exact absurd rfl (hstop _)
  | event hcall _ ih =>
    cases h' with
    | stops hstop =>
      rw [hcall] at hstop
      exact absurd rfl (hstop _)
    | event hcall' hrest' =>
      rw [hcall] at hcall'
      cases hcall'
      rw [ih hrest']

/-- A round that does not end the call returns nothing. -/
theorem Returns.again {events : List SseEvent} (h : s.round net = (.again, s', net'))
    (hrest : Returns s' net' events) : Returns s net events := by
  cases hrest with
  | stops hstop =>
    rw [← nextEvent_again h] at hstop
    exact .stops hstop
  | event hcall hrest =>
    rw [← nextEvent_again h] at hcall
    exact .event hcall hrest

end EventSource

end TokioCronet.Sse
