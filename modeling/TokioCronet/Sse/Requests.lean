import TokioCronet.Sse.Session

/-!
# The requests of an event source

An event source sends one request when it is opened and one more at every reconnect. The
first is built by the caller's builder, the others by `reconnect`, from the copy of the URL and
the headers that `open` kept. This module compares the two, and says when the last of them has
been sent.
-/

namespace TokioCronet.Sse

namespace EventSourceBuilder

/-- `EventSourceBuilder::header` -/
def header (b : EventSourceBuilder) (name value : Str) : Result EventSourceBuilder := do
  let request ← b.request.header name value
  return { b with request := request }

/-- `last_event_id` -/
def withLastEventId (b : EventSourceBuilder) (id : Str) : EventSourceBuilder :=
  { b with lastEventId := some id }

/-- `auto_reconnect` -/
def withAutoReconnect (b : EventSourceBuilder) (enable : Bool) : EventSourceBuilder :=
  { b with autoReconnect := enable }

/-- `retry` -/
def withRetry (b : EventSourceBuilder) (retry : Nat) : EventSourceBuilder :=
  { b with retry := retry }

/-- `max_response_bytes` -/
def withMaxResponseBytes (b : EventSourceBuilder) (bytes : Nat) : EventSourceBuilder :=
  { b with request.maxResponseBytes := bytes }

/-- A builder that a caller can have. -/
inductive Configured : EventSourceBuilder → Prop
  | new {b : EventSourceBuilder} {url : Str} : EventSourceBuilder.new url = .ok b → Configured b
  | header {b b' : EventSourceBuilder} {name value : Str} :
      Configured b → b.header name value = .ok b' → Configured b'
  | lastEventId {b : EventSourceBuilder} (id : Str) :
      Configured b → Configured (b.withLastEventId id)
  | autoReconnect {b : EventSourceBuilder} (enable : Bool) :
      Configured b → Configured (b.withAutoReconnect enable)
  | retry {b : EventSourceBuilder} (retry : Nat) : Configured b → Configured (b.withRetry retry)
  | maxResponseBytes {b : EventSourceBuilder} (bytes : Nat) :
      Configured b → Configured (b.withMaxResponseBytes bytes)

end EventSourceBuilder

/-- `u8::to_ascii_lowercase` -/
def asciiLower (byte : UInt8) : UInt8 := if 65 ≤ byte && byte ≤ 90 then byte + 32 else byte

/-- Whether a header is a `last-event-id`; the case of a header's name does not matter. -/
def isLastEventId (h : CString × CString) : Bool :=
  h.1.val.map asciiLower = str "last-event-id"

/-- What a request is to be that asks for the same again, from an event id on. -/
structure AsksAgain (first : SseRequest) (lastId : Option Str) (again : SseRequest) : Prop where
  /-- It goes to the same place. -/
  url : again.url = first.url
  /-- It is made in the same way. -/
  method : again.method = first.method
  /-- It does not use the cache. -/
  disableCache : again.disableCache = first.disableCache
  /-- It is limited in the same way. -/
  maxResponseBytes : again.maxResponseBytes = first.maxResponseBytes
  /-- It has the same headers, but for the event id. -/
  headers : again.headers.filter (fun h => !isLastEventId h) =
    first.headers.filter (fun h => !isLastEventId h)
  /-- It has the event id. -/
  lastEventId : (again.headers.filter isLastEventId).map (fun h => h.2.val) = lastId.toList

/-- A builder whose response is not limited and that sends no event id. -/
structure EventSourceBuilder.Plain (b : EventSourceBuilder) : Prop where
  /-- The response is not limited. -/
  maxResponseBytes : b.request.maxResponseBytes = usizeMax
  /-- No event id is set. -/
  lastEventId : b.lastEventId = none
  /-- No header is one. -/
  headers : ∀ h ∈ b.request.headers, isLastEventId h = false

/-! ## The two requests -/

variable {b : EventSourceBuilder} {s s₀ : EventSource} {net net₀ : Network}
  {first request : SseRequest} {c : Session}

/-- A sequence of checks passes if each of them does. -/
theorem bind_ok {α β : Type} {x : Result α} {f : α → Result β} {r : β}
    (h : (x >>= f) = .ok r) : ∃ a, x = .ok a ∧ f a = .ok r := by
  cases x with
  | error e => cases h
  | ok a => exact ⟨a, rfl, h⟩

theorem validateString_ok {value : Str} {field : String} {v : CString}
    (h : validateString value field = .ok v) : v.val = value := by
  unfold validateString at h
  split at h
  · cases h
    rfl
  · cases h

/-- A header is added behind the others. -/
theorem header_ok {r r' : SseRequest} {name value : Str} (h : r.header name value = .ok r') :
    ∃ n v : CString, n.val = name ∧ v.val = value ∧
      r' = { r with headers := r.headers ++ [(n, v)] } := by
  obtain ⟨n, hn, h⟩ := bind_ok h
  obtain ⟨v, hv, h⟩ := bind_ok h
  cases h
  exact ⟨n, v, validateString_ok hn, validateString_ok hv, rfl⟩

/-- The header of an event id, if there is one. -/
structure IdHeader (lastId : Option Str) (headers : List (CString × CString)) : Prop where
  /-- Its value is the id. -/
  values : headers.map (fun h => h.2.val) = lastId.toList
  /-- Its name says so. -/
  names : ∀ h ∈ headers, isLastEventId h = true

theorem idHeader_add {r r' : SseRequest} {lastId : Option Str}
    (h : (match lastId with
      | some id => r.header (str "last-event-id") id
      | none => .ok r) = .ok r') :
    ∃ ids, IdHeader lastId ids ∧ r' = { r with headers := r.headers ++ ids } := by
  cases lastId with
  | none =>
    cases h
    refine ⟨[], ⟨rfl, fun h hmem => absurd hmem List.not_mem_nil⟩, ?_⟩
    rw [List.append_nil]
  | some id =>
    obtain ⟨n, v, hn, hv, rfl⟩ := header_ok h
    refine ⟨[(n, v)], ⟨?_, ?_⟩, rfl⟩
    · rw [List.map_singleton, hv]
      rfl
    · intro h hmem
      rw [List.mem_singleton.mp hmem, isLastEventId, hn]
      decide +kernel

/-- What every builder has that a caller can have. -/
structure Gets (r : SseRequest) : Prop where
  /-- It is a `GET`. -/
  method : r.method.map Subtype.val = some (str "GET")
  /-- It does not use the cache. -/
  disableCache : r.disableCache = true

theorem header_gets {r r' : SseRequest} {name value : Str} (hr : Gets r)
    (h : r.header name value = .ok r') : Gets r' := by
  obtain ⟨n, v, -, -, rfl⟩ := header_ok h
  exact ⟨hr.method, hr.disableCache⟩

theorem configured_gets (h : b.Configured) : Gets b.request := by
  induction h with
  | @new b url hnew =>
    obtain ⟨r₁, -, hnew⟩ := bind_ok hnew
    obtain ⟨r₂, hmethod, hnew⟩ := bind_ok hnew
    obtain ⟨r₃, haccept, hnew⟩ := bind_ok hnew
    obtain ⟨r₄, hcache, hnew⟩ := bind_ok hnew
    cases hnew
    obtain ⟨m, hm, hmethod⟩ := bind_ok hmethod
    cases hmethod
    obtain ⟨n, v, -, -, rfl⟩ := header_ok haccept
    obtain ⟨n', v', -, -, rfl⟩ := header_ok hcache
    exact ⟨congrArg some (validateString_ok hm), rfl⟩
  | header _ hheader ih =>
    obtain ⟨request, hrequest, hheader⟩ := bind_ok hheader
    cases hheader
    exact header_gets ih hrequest
  | lastEventId id _ ih => exact ih
  | autoReconnect enable _ ih => exact ih
  | retry retry _ ih => exact ih
  | maxResponseBytes bytes _ ih => exact ⟨ih.method, ih.disableCache⟩

/-- The first request, and what `open` keeps of it. -/
theorem opened_first (hopen : b.openSource net₀ = (some (.ok s₀), net)) :
    ∃ ids first, IdHeader b.lastEventId ids ∧
      first = { b.request with headers := b.request.headers ++ ids } ∧
      net.requests = net₀.requests ++ [first] ∧ s₀.url = first.url ∧
      s₀.headers = first.headers := by
  unfold EventSourceBuilder.openSource at hopen
  split at hopen
  · cases hopen
  · rename_i built hbuilt
    obtain ⟨ids, hids, rfl⟩ := idHeader_add hbuilt
    unfold Network.send at hopen
    split at hopen
    · cases hopen
    · cases hopen
    · rename_i hsend
      cases hopen
      split at hsend
      · cases hsend
      · cases hsend
        exact ⟨ids, _, hids, rfl, rfl, rfl, rfl⟩

theorem copied_headers (headers : List (CString × CString)) : ∀ {r r' : SseRequest},
    headers.foldlM (fun r h => r.header h.1.val h.2.val) r = .ok r' →
      r' = { r with headers := r.headers ++ headers } := by
  induction headers with
  | nil =>
    intro r r' h
    cases h
    rw [List.append_nil]
  | cons header headers ih =>
    intro r r' h
    rw [List.foldlM_cons] at h
    obtain ⟨r₁, hr₁, h⟩ := bind_ok h
    obtain ⟨n, v, hn, hv, rfl⟩ := header_ok hr₁
    have hsame : (n, v) = header := Prod.ext (Subtype.ext hn) (Subtype.ext hv)
    rw [ih h, hsame, List.append_assoc]
    rfl

/-- The request of a reconnect. -/
theorem rebuilt (h : s.reconnectRequest = .ok request) :
    ∃ ids, IdHeader s.parser.lastId ids ∧ request.url = s.url ∧
      request.method.map Subtype.val = some (str "GET") ∧ request.disableCache = true ∧
      request.maxResponseBytes = usizeMax ∧ request.headers = s.headers ++ ids := by
  obtain ⟨r₁, hurl, h₁⟩ := bind_ok h
  obtain ⟨r₂, hmethod, h₂⟩ := bind_ok h₁
  obtain ⟨r₃, hcopied, h₃⟩ := bind_ok h₂
  clear h h₁ h₂
  obtain ⟨u, hu, hurl⟩ := bind_ok hurl
  cases hurl
  obtain ⟨m, hm, hmethod⟩ := bind_ok hmethod
  cases hmethod
  have hr₃ := copied_headers s.headers hcopied
  obtain ⟨ids, hids, hrequest⟩ := idHeader_add h₃
  subst hr₃ hrequest
  exact ⟨ids, hids, Subtype.ext (validateString_ok hu), congrArg some (validateString_ok hm),
    rfl, rfl, rfl⟩

/-! ## The first request and the others -/

theorem filter_ids {lastId : Option Str} {ids : List (CString × CString)}
    (h : IdHeader lastId ids) :
    ids.filter isLastEventId = ids ∧ ids.filter (fun h => !isLastEventId h) = [] := by
  refine ⟨List.filter_eq_self.mpr h.names, ?_⟩
  rw [List.filter_eq_nil_iff]
  intro header hmem
  rw [h.names header hmem]
  exact Bool.false_ne_true

/-- Headers and an event id behind them: there is no other id exactly if none of the headers
is one. -/
theorem ids_alone {lastId : Option Str} {headers ids : List (CString × CString)}
    (h : IdHeader lastId ids) :
    ((headers ++ ids).filter isLastEventId).map (fun h => h.2.val) = lastId.toList ↔
      ∀ h ∈ headers, isLastEventId h = false := by
  rw [List.filter_append, (filter_ids h).1, List.map_append, h.values, List.append_left_eq_self,
    List.map_eq_nil_iff, List.filter_eq_nil_iff]
  exact forall₂_congr fun header _ => Bool.not_eq_true _ ▸ Iff.rfl

theorem idHeader_nil {lastId : Option Str} {ids : List (CString × CString)}
    (h : IdHeader lastId ids) : (∀ h ∈ ids, isLastEventId h = false) ↔ lastId = none := by
  constructor
  · intro hnot
    have hids : ids = [] := by
      refine List.eq_nil_iff_forall_not_mem.mpr fun header hmem => ?_
      exact absurd ((h.names header hmem).symm.trans (hnot header hmem)) Bool.noConfusion
    have hvalues := h.values
    rw [hids] at hvalues
    cases lastId with
    | none => rfl
    | some id => cases hvalues
  · intro hnone header hmem
    have hvalues := h.values
    rw [hnone, Option.toList_none, List.map_eq_nil_iff] at hvalues
    rw [hvalues] at hmem
    exact absurd hmem List.not_mem_nil

open Session

/-- **A reconnect asks for the same again exactly if the builder is plain.** -/
theorem reconnect_asks_again {l : List Action} {a : Action} (hb : b.Configured)
    (hopen : b.openSource net₀ = (some (.ok s₀), net))
    (hfirst : net.requests = net₀.requests ++ [first])
    (hsent : (((fresh s₀ net).run l).1.act a).1.net.requests =
      ((fresh s₀ net).run l).1.net.requests ++ [request]) :
    AsksAgain first ((fresh s₀ net).run l).1.source.parser.lastId request ↔ b.Plain := by
  have hstays : Stays s₀ ((fresh s₀ net).run l).1.source := stays_run l (fresh s₀ net)
  obtain ⟨ids₀, first', hids₀, hfirst', hrequests, hurl, hheaders⟩ := opened_first hopen
  obtain rfl : first' = first :=
    List.singleton_inj.mp (List.append_cancel_left (hrequests.symm.trans hfirst))
  rcases act_requests ((fresh s₀ net).run l).1 a with hsame | ⟨-, request', -, hrequest, hone⟩
  · rw [hsent] at hsame
    exact absurd hsame (List.append_right_eq_self.not.mpr (List.cons_ne_nil _ _))
  obtain rfl : request' = request :=
    List.singleton_inj.mp (List.append_cancel_left (hone.symm.trans hsent))
  obtain ⟨ids, hids, hurl', hmethod, hcache, hbytes, hheaders'⟩ := rebuilt hrequest
  obtain ⟨hgets, hgetsCache⟩ := configured_gets hb
  have hall : (∀ h ∈ first'.headers, isLastEventId h = false) ↔
      (∀ h ∈ b.request.headers, isLastEventId h = false) ∧ b.lastEventId = none := by
    rw [hfirst', List.forall_mem_append, idHeader_nil hids₀]
  have hagain : request'.headers = first'.headers ++ ids := by
    rw [hheaders', hstays.headers, hheaders]
  constructor
  · intro hasks
    have hlimit : b.request.maxResponseBytes = usizeMax := by
      rw [← hbytes, hasks.maxResponseBytes, hfirst']
    have hid := hasks.lastEventId
    rw [hagain, ids_alone hids] at hid
    obtain ⟨hbuilder, hnone⟩ := hall.mp hid
    exact ⟨hlimit, hnone, hbuilder⟩
  · intro hplain
    refine ⟨?_, ?_, ?_, ?_, ?_, ?_⟩
    · rw [hurl', hstays.url, hurl]
    · refine Option.map_injective Subtype.val_injective ?_
      rw [hmethod, hfirst', hgets]
    · rw [hcache, hfirst', hgetsCache]
    · rw [hbytes, hfirst', hplain.maxResponseBytes]
    · rw [hagain, List.filter_append, (filter_ids hids).2, List.append_nil]
    · rw [hagain, ids_alone hids]
      exact hall.mpr ⟨hplain.headers, hplain.lastEventId⟩

/-- The builder that `EventSourceBuilder::new` makes. -/
def newBuilder : EventSourceBuilder where
  request := { url := EventSource.reconnecting.request.url, method := some ⟨str "GET", by decide⟩,
               headers := [(⟨str "accept", by decide⟩, ⟨str "text/event-stream", by decide⟩),
                 (⟨str "cache-control", by decide⟩, ⟨str "no-cache", by decide⟩)],
               disableCache := true, maxResponseBytes := usizeMax }
  lastEventId := none
  autoReconnect := false
  retry := 3000

theorem newBuilder_new : EventSourceBuilder.new (str "http://127.0.0.1/sse") = .ok newBuilder := rfl

/-- A request with the header of an event id added. -/
def withEventId (r : SseRequest) (id : CString) : SseRequest :=
  { r with headers := r.headers ++ [(⟨str "last-event-id", by decide⟩, id)] }

/-- What a builder opens on a body. -/
def openedOn (b : EventSourceBuilder) (first : SseRequest) (body : Body) : EventSource where
  url := first.url
  headers := first.headers
  body := some body
  parser := { lastId := b.lastEventId }
  autoReconnect := b.autoReconnect
  retry := b.retry
  pending := []

/-- A plain event source reconnects from the event it has returned. -/
theorem reconnect_asks_again_plain :
    AsksAgain newBuilder.request (some (str "7"))
      (withEventId newBuilder.request ⟨str "7", by decide⟩) := by
  have hb : (newBuilder.withAutoReconnect true).Configured :=
    .autoReconnect true (.new newBuilder_new)
  have hopen : (newBuilder.withAutoReconnect true).openSource
      ⟨[.ok [.ok (str "id:7\ndata:x\n\n")]], []⟩ =
      (some (.ok (openedOn (newBuilder.withAutoReconnect true) newBuilder.request
        [.ok (str "id:7\ndata:x\n\n")])), ⟨[], [newBuilder.request]⟩) := rfl
  have hsent : (((fresh (openedOn (newBuilder.withAutoReconnect true) newBuilder.request
        [.ok (str "id:7\ndata:x\n\n")]) ⟨[], [newBuilder.request]⟩).run
        [.call, .wake, .call, .wake]).1.act .wake).1.net.requests =
      ((fresh (openedOn (newBuilder.withAutoReconnect true) newBuilder.request
        [.ok (str "id:7\ndata:x\n\n")]) ⟨[], [newBuilder.request]⟩).run
        [.call, .wake, .call, .wake]).1.net.requests ++
        [withEventId newBuilder.request ⟨str "7", by decide⟩] := by
    decide +kernel
  refine (reconnect_asks_again hb hopen rfl hsent).mpr ⟨rfl, rfl, ?_⟩
  decide +kernel

/-- An event source that starts from an event id, and limits its response. -/
def resuming : EventSourceBuilder :=
  ((newBuilder.withLastEventId (str "1")).withAutoReconnect true).withMaxResponseBytes 1000

/-- The reconnect sends the id twice, and no limit. -/
theorem event_id_sent_twice :
    let first := withEventId resuming.request ⟨str "1", by decide⟩
    let again := { withEventId first ⟨str "1", by decide⟩ with maxResponseBytes := usizeMax }
    let net : Network := ⟨[], [first]⟩
    resuming.openSource ⟨[.ok []], []⟩ = (some (.ok (openedOn resuming first [])), net) ∧
      (((fresh (openedOn resuming first []) net).run [.call, .wake]).1.act .wake).1.net.requests =
        [first, again] ∧
      ¬ AsksAgain first (some (str "1")) again := by
  refine ⟨rfl, by decide +kernel, fun hasks => ?_⟩
  exact absurd hasks.lastEventId (by decide +kernel)

/-! ## A cancelled connection -/

/-- There is a connection, or the retry sleep that follows it. -/
def Session.Connected (c : Session) : Prop :=
  c.source.body ≠ none ∨ ∃ retry, c.future = some (.sleep retry)

/-- An event source that does not reconnect sends nothing more. -/
theorem run_sends_nothing (l : List Action) : ∀ c : Session, Waits c →
    c.source.autoReconnect = false → (c.run l).1.net.requests = c.net.requests := by
  induction l with
  | nil => exact fun c _ _ => rfl
  | cons a l ih =>
    intro c hwaits hauto
    have hlater := ih _ (waits_act hwaits a) ((stays_act c a).autoReconnect.trans hauto)
    rcases act_requests c a with hsame | ⟨retry, request, hsleep, -⟩
    · exact hlater.trans hsame
    · obtain ⟨-, hon⟩ := hwaits.reconnect _ hsleep (nomatch ·)
      exact absurd (hon.symm.trans hauto) Bool.noConfusion

/-- A sleep ends with a request. -/
theorem wake_sends {retry : Nat} (hsound : c.source.parser.Sound)
    (hsleep : c.future = some (.sleep retry)) :
    ∃ request, (c.act .wake).1.net.requests = c.net.requests ++ [request] := by
  obtain ⟨request, hrequest⟩ := EventSource.reconnectRequest_ok hsound
  refine ⟨request, ?_⟩
  rw [act, wake, hsleep]
  dsimp only [resend]
  rw [hrequest]
  dsimp only [Network.send]
  split <;> rfl

/-- A connection that has failed is followed by another as long as somebody calls: first the
events that wait are returned. -/
theorem failed_sends {e : Error} (pending : List SseEvent) : ∀ {s : EventSource},
    s.pending = pending → s.autoReconnect = true → s.parser.Sound → s.body = some [.error e] →
      ∃ l request, ((⟨s, net, none⟩ : Session).run l).1.net.requests =
        net.requests ++ [request] := by
  induction pending using List.reverseRec with
  | nil =>
    intro s hpending hauto hsound hbody
    obtain ⟨request, hrequest⟩ := @wake_sends
      ⟨{ s with body := none }, net, some (.sleep s.retry)⟩ s.retry hsound rfl
    refine ⟨[.call, .wake, .wake], request, ?_⟩
    have htop : top s net = (⟨s, net, some .chunk⟩, []) := by
      rw [top, hpending, hbody]
      rfl
    have hlost : wake ⟨s, net, some .chunk⟩ =
        (⟨{ s with body := none }, net, some (.sleep s.retry)⟩, []) := by
      rw [wake]
      dsimp only
      rw [hbody]
      dsimp only [lost]
      rw [if_pos hauto]
    show ((((top s net).1.act .wake).1.act .wake).1).net.requests = _
    rw [htop]
    show (((wake ⟨s, net, some .chunk⟩).1.act .wake).1).net.requests = _
    rw [hlost]
    exact hrequest
  | append_singleton pending event ih =>
    intro s hpending hauto hsound hbody
    obtain ⟨l, request, hsent⟩ := @ih { s with pending := pending } rfl hauto hsound hbody
    refine ⟨.call :: l, request, ?_⟩
    have htop : (top s net).1 = ⟨{ s with pending := pending }, net, none⟩ := by
      rw [top, hpending, List.getLast?_concat, List.dropLast_concat]
    show ((top s net).1.run l).1.net.requests = _
    rw [htop]
    exact hsent

/-- **A cancelled event source stays cancelled exactly if it does not reconnect.** -/
theorem cancelled_stays_cancelled {l : List Action}
    (hopen : b.openSource net₀ = (some (.ok s₀), net))
    (hconnected : ((fresh s₀ net).run l).1.Connected) :
    (∀ rest later, ((((fresh s₀ net).run l).1.act (.cancel rest)).1.run later).1.net.requests =
      ((fresh s₀ net).run l).1.net.requests) ↔ b.autoReconnect = false := by
  have hinv := EventSource.sourceInv_open hopen
  have hwaits : Waits ((fresh s₀ net).run l).1 := waits_run l _ (waits_idle s₀ net)
  have hstays : Stays s₀ ((fresh s₀ net).run l).1.source := stays_run l (fresh s₀ net)
  have hauto := hstays.autoReconnect.trans hinv.autoReconnect
  have hsound := hstays.sound hinv.parser
  revert hconnected hwaits hauto hsound
  generalize ((fresh s₀ net).run l).1 = c
  intro hconnected hwaits hauto hsound
  constructor
  · intro hstill
    by_contra hon
    rw [Bool.not_eq_false] at hon
    obtain ⟨l, request, hsent⟩ : ∃ l request,
        ((c.act (.cancel [.error .canceled])).1.run l).1.net.requests =
          c.net.requests ++ [request] := by
      obtain ⟨s, net, future⟩ := c
      cases hbody : s.body with
      | none =>
        -- nothing is left to cancel, and the sleep goes on
        rcases hconnected with hbad | ⟨retry, hsleep⟩
        · exact absurd hbody hbad
        · obtain ⟨request, hrequest⟩ := @wake_sends
            ((⟨s, net, future⟩ : Session).act (.cancel [.error .canceled])).1 retry hsound hsleep
          exact ⟨[.wake], request, hrequest⟩
      | some items =>
        -- the body fails, and whoever calls next reconnects
        obtain ⟨l, request, hsent⟩ := @failed_sends net .canceled s.pending
          { s with body := some [.error .canceled] } rfl (hauto.trans hon) hsound rfl
        refine ⟨.drop :: l, request, ?_⟩
        show
          ((⟨{ s with body := s.body.map fun _ => _ }, net, none⟩ : Session).run l).1.net.requests
            = _
        rw [hbody]
        exact hsent
    exact List.cons_ne_nil _ _ (List.append_right_eq_self.mp (hsent.symm.trans (hstill _ l)))
  · intro hoff rest later
    exact run_sends_nothing later _ (waits_act hwaits (.cancel rest)) (hauto.trans hoff)

/-- An event source that does not reconnect is cancelled while a call waits. -/
theorem cancelled_stays_cancelled_off :
    let c := (fresh (openedOn newBuilder newBuilder.request [])
      ⟨[.ok []], [newBuilder.request]⟩).run
      [.call]
    ((c.1.act (.cancel [.error .canceled])).1.run [.wake, .call, .wake]).1.net.requests =
      [newBuilder.request] := by
  have hopen : newBuilder.openSource ⟨[.ok [], .ok []], []⟩ =
      (some (.ok (openedOn newBuilder newBuilder.request [])),
        ⟨[.ok []], [newBuilder.request]⟩) := rfl
  have hconnected : ((fresh (openedOn newBuilder newBuilder.request [])
      ⟨[.ok []], [newBuilder.request]⟩).run [.call]).1.Connected := .inl (Option.some_ne_none _)
  exact (cancelled_stays_cancelled hopen hconnected).mpr rfl _ _

/-- The call that waits when the connection is cancelled goes on to open another. -/
theorem cancelled_reconnects :
    let first := withEventId resuming.request ⟨str "1", by decide⟩
    let c := (fresh (openedOn resuming first []) ⟨[.ok []], [first]⟩).run [.call]
    resuming.openSource ⟨[.ok [], .ok []], []⟩ =
        (some (.ok (openedOn resuming first [])), ⟨[.ok []], [first]⟩) ∧
      c.1.Connected ∧
      ((c.1.act (.cancel [.error .canceled])).1.run [.wake, .wake]).1.net.requests ≠
        c.1.net.requests := by
  refine ⟨rfl, .inl (Option.some_ne_none _), ?_⟩
  decide +kernel

end TokioCronet.Sse
