import TokioCronet.Sse.Reconnect

/-!
# Calls that are not waited for

`next_event` as the future it is. A call that returns nothing at once waits at one of three
places: for a chunk, for the retry time to pass, or for the answer to the request of a
reconnect. There it may be dropped, and the next call starts again from what the event source
holds; and meanwhile somebody may cancel the connection, through the event source or a handle
that it gave out. An event source that nobody drops a call of does what `nextEvent` says.
-/

namespace TokioCronet.Sse

/-- What a pending `next_event` waits for. -/
inductive Await where
  | chunk
  | sleep (retry : Nat)
  /-- The answer that the request of a reconnect gets. -/
  | send (answer : Option (Result Body))
  deriving DecidableEq

/-- What `next_event` returns. -/
abbrev Answer := Option (Result SseEvent)

/-- An event source, the network and the call that is pending. -/
structure Session where
  source : EventSource
  net : Network
  future : Option Await

/-- What happens to an event source. -/
inductive Action where
  /-- `next_event` is called and polled. -/
  | call
  /-- What the pending call waits for has come, and it is polled. -/
  | wake
  /-- The pending call is dropped. -/
  | drop
  /-- `EventSource::cancel`, or `cancel` of a handle of this connection: the body goes on
  with something else. -/
  | cancel (rest : Body)

namespace Session

/-- The loop of `next_event` from its top to where the call waits for a chunk. -/
def top (s : EventSource) (net : Network) : Session × List Answer :=
  match s.pending.getLast? with
  | some event => (⟨{ s with pending := s.pending.dropLast }, net, none⟩, [some (.ok event)])
  | none =>
    match s.body with
    | none => (⟨s, net, none⟩, [none])
    | some _ => (⟨s, net, some .chunk⟩, [])

/-- The body has ended, or failed: `reconnect` drops it and sleeps. -/
def lost (s : EventSource) (net : Network) (failure : Option Error) : Session × List Answer :=
  if s.autoReconnect then (⟨{ s with body := none }, net, some (.sleep s.retry)⟩, [])
  else (⟨s, net, none⟩, [failure.map .error])

/-- `reconnect` after the sleep. -/
def resend (s : EventSource) (net : Network) : Session × List Answer :=
  match s.reconnectRequest with
  | .error e => (⟨s, net, none⟩, [some (.error e)])
  | .ok request => (⟨s, (net.send request).2, some (.send (net.send request).1)⟩, [])

/-- A call that waits is polled again. -/
def wake (c : Session) : Session × List Answer :=
  match c.future with
  | none => (c, [])
  | some .chunk =>
    match c.source.body with
    | none => (c, [])
    | some [] => lost c.source c.net none
    | some (.error e :: items) => lost { c.source with body := some items } c.net (some e)
    | some (.ok chunk :: items) => top (({ c.source with body := some items }).ingest chunk) c.net
  | some (.sleep _) => resend c.source c.net
  -- a request with no answer waits
  | some (.send none) => (c, [])
  | some (.send (some (.error e))) => (⟨c.source, c.net, none⟩, [some (.error e)])
  | some (.send (some (.ok body))) => top { c.source with body := some body } c.net

/-- An action, and what the call returns by it. One that cannot happen does nothing. -/
def act (c : Session) : Action → Session × List Answer
  | .call => if c.future = none then top c.source c.net else (c, [])
  | .wake => c.wake
  | .drop => ({ c with future := none }, [])
  | .cancel rest => ({ c with source.body := c.source.body.map fun _ => rest }, [])

/-- Actions one after another, and all that the calls return. -/
def run : Session → List Action → Session × List Answer
  | c, [] => (c, [])
  | c, a :: l => (((c.act a).1.run l).1, (c.act a).2 ++ ((c.act a).1.run l).2)

/-- An event source that was just opened. -/
def fresh (s : EventSource) (net : Network) : Session := ⟨s, net, none⟩

variable {c c' : Session} {s s' s₀ : EventSource} {net net' net₀ : Network} {a : Action}

theorem run_append (l l' : List Action) : ∀ c : Session,
    (c.run (l ++ l')).1 = ((c.run l).1.run l').1 ∧
      (c.run (l ++ l')).2 = (c.run l).2 ++ ((c.run l).1.run l').2 := by
  induction l with
  | nil => exact fun c => ⟨rfl, rfl⟩
  | cons a l ih =>
    intro c
    obtain ⟨hc, hr⟩ := ih (c.act a).1
    refine ⟨hc, ?_⟩
    rw [List.cons_append, run, run, hr, List.append_assoc]

/-! ## What an action can do -/

/-- **The top of the loop.** An event is handed out, or the body is gone, or the call
waits for a chunk. -/
theorem top_cases (s : EventSource) (net : Network) :
    (∃ events event, s.pending = events ++ [event] ∧
      top s net = (⟨{ s with pending := events }, net, none⟩, [some (.ok event)])) ∨
    (s.pending = [] ∧ s.body = none ∧ top s net = (⟨s, net, none⟩, [none])) ∨
    (s.pending = [] ∧ s.body ≠ none ∧ top s net = (⟨s, net, some .chunk⟩, [])) := by
  unfold top
  split
  · rename_i event hlast
    obtain ⟨events, hevents⟩ := List.getLast?_eq_some_iff.mp hlast
    refine .inl ⟨events, event, hevents, ?_⟩
    rw [hevents, List.dropLast_concat]
  · rename_i hlast
    have hnil : s.pending = [] := List.getLast?_eq_none_iff.mp hlast
    split
    · rename_i hbody
      exact .inr (.inl ⟨hnil, hbody, rfl⟩)
    · rename_i body hbody
      refine .inr (.inr ⟨hnil, ?_, rfl⟩)
      rw [hbody]
      exact Option.some_ne_none body

/-- What stays of an event source, whatever happens to it. -/
structure Stays (s s' : EventSource) : Prop where
  /-- Where it connects to. -/
  url : s'.url = s.url
  /-- What it was opened with. -/
  headers : s'.headers = s.headers
  /-- Whether it reconnects. -/
  autoReconnect : s'.autoReconnect = s.autoReconnect
  /-- What its parser can send. -/
  sound : s.parser.Sound → s'.parser.Sound

theorem stays_refl (s : EventSource) : Stays s s := ⟨rfl, rfl, rfl, id⟩

theorem stays_body (s : EventSource) (body : Option Body) : Stays s { s with body := body } :=
  ⟨rfl, rfl, rfl, id⟩

theorem Stays.trans {s₁ : EventSource} (h : Stays s₀ s) (h' : Stays s s₁) : Stays s₀ s₁ :=
  ⟨h'.url.trans h.url, h'.headers.trans h.headers, h'.autoReconnect.trans h.autoReconnect,
    fun hs => h'.sound (h.sound hs)⟩

theorem stays_ingest (s : EventSource) (chunk : List UInt8) : Stays s (s.ingest chunk) := by
  obtain ⟨-, hp, ha, hu, hh⟩ := s.ingest_other chunk
  refine ⟨hu, hh, ha, fun hs => ?_⟩
  rw [hp]
  exact hs.push chunk

theorem stays_top (s : EventSource) (net : Network) : Stays s (top s net).1.source := by
  rcases top_cases s net with ⟨events, event, -, h⟩ | ⟨-, -, h⟩ | ⟨-, -, h⟩
  · rw [h]
    exact ⟨rfl, rfl, rfl, id⟩
  · rw [h]
    exact stays_refl s
  · rw [h]
    exact stays_refl s

theorem stays_lost (s : EventSource) (net : Network) (failure : Option Error) :
    Stays s (lost s net failure).1.source := by
  unfold lost
  split
  · exact stays_body s none
  · exact stays_refl s

theorem stays_resend (s : EventSource) (net : Network) : Stays s (resend s net).1.source := by
  unfold resend
  split
  · exact stays_refl s
  · exact stays_refl s

theorem stays_wake (c : Session) : Stays c.source c.wake.1.source := by
  unfold wake
  split
  · exact stays_refl _
  · split
    · exact stays_refl _
    · exact stays_lost _ _ _
    · rename_i items _
      exact (stays_body _ (some items)).trans (stays_lost _ _ _)
    · rename_i items _
      exact ((stays_body _ (some items)).trans (stays_ingest _ _)).trans (stays_top _ _)
  · exact stays_resend _ _
  · exact stays_refl _
  · exact stays_refl _
  · rename_i body _
    exact (stays_body _ (some body)).trans (stays_top _ _)

theorem stays_act (c : Session) (a : Action) : Stays c.source (c.act a).1.source := by
  cases a with
  | call =>
    rw [act]
    split
    · exact stays_top _ _
    · exact stays_refl _
  | wake => exact stays_wake c
  | drop => exact stays_refl _
  | cancel rest => exact stays_body _ _

theorem stays_run (l : List Action) : ∀ c : Session, Stays c.source (c.run l).1.source := by
  induction l with
  | nil => exact fun c => stays_refl _
  | cons a l ih => exact fun c => (stays_act c a).trans (ih _)

/-- **A request is sent at the end of a retry sleep, and nowhere else.** -/
theorem act_requests (c : Session) (a : Action) :
    (c.act a).1.net.requests = c.net.requests ∨
      ∃ retry request, c.future = some (.sleep retry) ∧ c.source.reconnectRequest = .ok request ∧
        (c.act a).1.net.requests = c.net.requests ++ [request] := by
  have htop : ∀ s net, (top s net).1.net = net := by
    intro s net
    rcases top_cases s net with ⟨events, event, -, h⟩ | ⟨-, -, h⟩ | ⟨-, -, h⟩ <;> rw [h]
  have hlost : ∀ s net failure, (lost s net failure).1.net = net := by
    intro s net failure
    unfold lost
    split <;> rfl
  cases a with
  | call =>
    left
    rw [act]
    split
    · rw [htop]
    · rfl
  | drop => exact .inl rfl
  | cancel rest => exact .inl rfl
  | wake =>
    rw [act]
    unfold wake
    split
    · exact .inl rfl
    · left
      split
      · rfl
      · rw [hlost]
      · rw [hlost]
      · rw [htop]
    · rename_i retry hsleep
      unfold resend
      split
      · exact .inl rfl
      · rename_i request hrequest
        refine .inr ⟨retry, request, hsleep, hrequest, ?_⟩
        unfold Network.send
        split <;> rfl
    · exact .inl rfl
    · exact .inl rfl
    · exact .inl (by rw [htop])

/-! ## Where a call waits -/

/-- What the event source holds while a call waits. A reconnect has taken the body. -/
structure Waits (c : Session) : Prop where
  /-- A call that waits has found nothing pending. -/
  pending : c.future ≠ none → c.source.pending = []
  /-- A call that waits for a chunk has a body. -/
  chunk : c.future = some .chunk → c.source.body ≠ none
  /-- A call that waits for a reconnect has none, and may reconnect. -/
  reconnect : ∀ w, c.future = some w → w ≠ .chunk →
    c.source.body = none ∧ c.source.autoReconnect = true

theorem waits_idle (s : EventSource) (net : Network) : Waits ⟨s, net, none⟩ where
  pending h := absurd rfl h
  chunk h := nomatch h
  reconnect _ h := nomatch h

theorem waits_top (s : EventSource) (net : Network) : Waits (top s net).1 := by
  rcases top_cases s net with ⟨events, event, -, h⟩ | ⟨-, -, h⟩ | ⟨hpending, hbody, h⟩
  · rw [h]
    exact waits_idle _ _
  · rw [h]
    exact waits_idle _ _
  · rw [h]
    refine ⟨fun _ => hpending, fun _ => hbody, fun w hw hne => ?_⟩
    exact absurd (Option.some.inj hw).symm hne

theorem waits_lost (hpending : s.pending = []) (failure : Option Error) :
    Waits (lost s net failure).1 := by
  unfold lost
  split
  · rename_i hauto
    exact ⟨fun _ => hpending, fun h => (nomatch h), fun w hw hne => ⟨rfl, hauto⟩⟩
  · exact waits_idle _ _

theorem waits_act (h : Waits c) (a : Action) : Waits (c.act a).1 := by
  obtain ⟨s, net, future⟩ := c
  cases a with
  | call =>
    rw [act]
    split
    · exact waits_top _ _
    · exact h
  | drop => exact waits_idle _ _
  | cancel rest =>
    refine ⟨h.pending, fun hchunk hnone => ?_, fun w hw hne => ?_⟩
    · exact h.chunk hchunk (Option.map_eq_none_iff.mp hnone)
    · obtain ⟨hbody, hauto⟩ := h.reconnect w hw hne
      exact ⟨Option.map_eq_none_iff.mpr hbody, hauto⟩
  | wake =>
    rw [act]
    unfold wake
    split
    · exact h
    · rename_i hfuture
      have hpending : s.pending = [] := h.pending (hfuture ▸ Option.some_ne_none _)
      split
      · exact h
      · exact waits_lost hpending _
      · rename_i e items _
        exact @waits_lost { s with body := some items } net hpending (some e)
      · exact waits_top _ _
    · rename_i retry hfuture
      obtain ⟨hbody, hauto⟩ := h.reconnect _ hfuture (nomatch ·)
      have hpending : s.pending = [] := h.pending (hfuture ▸ Option.some_ne_none _)
      unfold resend
      split
      · exact waits_idle _ _
      · exact ⟨fun _ => hpending, fun h => (nomatch h), fun w hw hne => ⟨hbody, hauto⟩⟩
    · exact h
    · exact waits_idle _ _
    · exact waits_top _ _

theorem waits_run (l : List Action) : ∀ c : Session, Waits c → Waits (c.run l).1 := by
  induction l with
  | nil => exact fun c h => h
  | cons a l ih => exact fun c h => ih _ (waits_act h a)

/-! ## A call that is waited for -/

/-- The call goes on `k` times. -/
def follow (p : Session × List Answer) (k : Nat) : Session × List Answer :=
  ((p.1.run (List.replicate k .wake)).1, p.2 ++ (p.1.run (List.replicate k .wake)).2)

theorem follow_zero (p : Session × List Answer) : follow p 0 = p := by
  rw [follow, List.replicate_zero, run, List.append_nil]

theorem follow_succ (c : Session) (k : Nat) : follow (c, []) (k + 1) = follow c.wake k := rfl

/-- How a call stands when `rounds` is done. -/
def stood : Option Answer × EventSource × Network → Session × List Answer
  | (some item, s, net) => (⟨s, net, none⟩, [item])
  | (none, s, net) => (⟨s, net, some (.send none)⟩, [])

/-- A lost connection, up to the top of the loop with the body of the new one. -/
theorem follow_lost {n : Nat} (failure : Option Error)
    (ih : ∀ s net, s.supply net < n →
      ∃ k, follow (top s net) k = stood (EventSource.rounds n s net))
    (hlt : ∀ r s' net', s.ended failure net = (r, s', net') → r = .again → s'.supply net' < n) :
    ∃ k, follow (lost s net failure) k =
      stood (match s.ended failure net with
        | (.ready item, s, net) => (some item, s, net)
        | (.waiting, s, net) => (none, s, net)
        | (.again, s, net) => EventSource.rounds n s net) := by
  revert hlt
  unfold lost EventSource.ended EventSource.reconnect
  intro hlt
  split
  · cases hrequest : s.reconnectRequest with
    | error e =>
      refine ⟨1, ?_⟩
      rw [follow_succ, wake, resend]
      dsimp only
      rw [show ({ s with body := none } : EventSource).reconnectRequest =
        s.reconnectRequest from rfl,
        hrequest, follow_zero]
      rfl
    | ok request =>
      have hresend : wake ⟨{ s with body := none }, net, some (.sleep s.retry)⟩ =
          (⟨{ s with body := none }, (net.send request).2, some (.send (net.send request).1)⟩,
            []) := by
        rw [wake, resend]
        dsimp only
        rw [show ({ s with body := none } : EventSource).reconnectRequest = s.reconnectRequest
          from rfl, hrequest]
      rcases hsend : net.send request with ⟨_ | ⟨e | body⟩, net'⟩
      · refine ⟨1, ?_⟩
        rw [follow_succ, hresend, hsend, follow_zero]
        dsimp only
        rw [hsend]
        rfl
      · refine ⟨2, ?_⟩
        rw [follow_succ, hresend, hsend, follow_succ, follow_zero]
        dsimp only
        rw [hsend]
        rfl
      · have hsupply : ({ s with body := some body } : EventSource).supply net' < n := by
          refine hlt .again _ _ ?_ rfl
          rw [if_pos (by assumption), hrequest]
          dsimp only
          rw [hsend]
        obtain ⟨k, hk⟩ := ih { s with body := some body } net' hsupply
        refine ⟨k + 2, ?_⟩
        rw [follow_succ, hresend, hsend, follow_succ]
        dsimp only
        rw [hsend]
        exact hk
  · exact ⟨0, follow_zero _⟩

/-- **A call that nobody drops does what `rounds` says.** -/
theorem follow_rounds (n : Nat) : ∀ s net, s.supply net < n →
    ∃ k, follow (top s net) k = stood (EventSource.rounds n s net) := by
  induction n with
  | zero => exact fun s net h => absurd h (Nat.not_lt_zero _)
  | succ n ih =>
    intro s net hn
    have hsmall : ∀ r s' net', s.round net = (r, s', net') → r = .again → s'.supply net' < n := by
      intro r s' net' hround hr
      have hlt := EventSource.supply_lt (hr ▸ hround)
      omega
    rw [EventSource.rounds]
    revert hsmall
    unfold EventSource.round top
    cases s.pending.getLast? with
    | some event => exact fun _ => ⟨0, follow_zero _⟩
    | none =>
      cases hbody : s.body with
      | none => exact fun _ => ⟨0, follow_zero _⟩
      | some items =>
        dsimp only
        intro hsmall
        cases items with
        | nil =>
          obtain ⟨k, hk⟩ := follow_lost none ih hsmall
          refine ⟨k + 1, ?_⟩
          rw [follow_succ, wake]
          dsimp only
          rw [hbody]
          exact hk
        | cons item items =>
          cases item with
          | error e =>
            obtain ⟨k, hk⟩ := follow_lost (some e) ih hsmall
            refine ⟨k + 1, ?_⟩
            rw [follow_succ, wake]
            dsimp only
            rw [hbody]
            exact hk
          | ok chunk =>
            obtain ⟨k, hk⟩ := ih _ _ (hsmall _ _ _ rfl rfl)
            refine ⟨k + 1, ?_⟩
            rw [follow_succ, wake]
            dsimp only
            rw [hbody]
            exact hk

theorem call_nextEvent (s : EventSource) (net : Network) :
    ∃ k, (fresh s net).run (.call :: List.replicate k .wake) = stood (s.nextEvent net) := by
  obtain ⟨k, hk⟩ := follow_rounds (s.supply net + 1) s net (Nat.lt_succ_self _)
  exact ⟨k, hk⟩

/-! ## A call that is dropped -/

/-- A call that waits for a chunk holds nothing: the next call waits in the same place. -/
theorem recalled (h : Waits c) (hchunk : c.future = some .chunk) :
    c.run [.drop, .call] = (c, []) := by
  obtain ⟨s, net, future⟩ := c
  cases hchunk
  have htop : top s net = (⟨s, net, some .chunk⟩, []) := by
    rcases top_cases s net with ⟨events, event, hpending, -⟩ | ⟨-, hbody, -⟩ | ⟨-, -, htop⟩
    · rw [h.pending (Option.some_ne_none _)] at hpending
      exact absurd hpending.symm (List.concat_ne_nil event events)
    · exact absurd hbody (h.chunk rfl)
    · exact htop
  show ((top s net).1, [] ++ ((top s net).2 ++ [])) = _
  rw [htop]
  rfl

/-- A reconnect is given up with the call, and with it the event source. -/
theorem given_up (h : Waits c) {w : Await} (hw : c.future = some w) (hne : w ≠ .chunk) :
    c.run [.drop, .call] = ({ c with future := none }, [none]) := by
  obtain ⟨hbody, -⟩ := h.reconnect w hw hne
  have hpending := h.pending (hw ▸ Option.some_ne_none w)
  obtain ⟨s, net, future⟩ := c
  have htop : top s net = (⟨s, net, none⟩, [none]) := by
    rw [top, show s.pending = [] from hpending, show s.body = none from hbody]
    rfl
  show ((top s net).1, [] ++ ((top s net).2 ++ [])) = _
  rw [htop]
  rfl

/-- **A call may be dropped exactly while it waits for a chunk.** Then the calls go on to
return what they would have returned. -/
theorem dropped_call_resumes {w : Await} {l : List Action}
    (hwaits : ((fresh s net).run l).1.future = some w) :
    (∀ later, (((fresh s net).run l).1.run (.drop :: .call :: later)).2 =
      (((fresh s net).run l).1.run later).2) ↔ w = .chunk := by
  have hinv : Waits ((fresh s net).run l).1 := waits_run l _ (waits_idle s net)
  constructor
  · intro hsame
    by_contra hne
    -- the call after the drop says that there are no more events
    have hnone := hsame []
    rw [given_up hinv hwaits hne] at hnone
    cases hnone
  · intro hchunk later
    obtain ⟨hsession, hanswers⟩ := run_append [.drop, .call] later ((fresh s net).run l).1
    rw [recalled hinv (hchunk ▸ hwaits)] at hsession hanswers
    exact hanswers

/-- A call is dropped while it waits for the first chunk. -/
theorem dropped_call_resumes_chunk :
    let c := (fresh (EventSource.opened [.ok (str "data:x\n\n")]) ⟨[], []⟩).run [.call]
    (c.1.run [.drop, .call, .wake]).2 = (c.1.run [.wake]).2 := by
  have hwaits : ((fresh (EventSource.opened [.ok (str "data:x\n\n")]) ⟨[], []⟩).run
      [.call]).1.future = some .chunk := rfl
  exact (dropped_call_resumes hwaits).mpr rfl [.wake]

/-- The first connection ends, and the call is dropped in the sleep before the second: the
event of the second is lost, and there are said to be no more. -/
theorem dropped_in_sleep :
    let c := (fresh (EventSource.opened []) ⟨[.ok [.ok (str "data:x\n\n")]], []⟩).run
      [.call, .wake]
    (c.1.run [.wake, .wake, .wake]).2 = [some (.ok ⟨none, str "message", str "x"⟩)] ∧
      (c.1.run [.drop, .call, .wake, .wake, .wake]).2 = [none] := by
  decide +kernel

end Session

end TokioCronet.Sse
