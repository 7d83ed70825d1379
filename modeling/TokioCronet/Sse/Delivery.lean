import TokioCronet.Sse.LastId

/-!
# The events of a connection

Without a reconnect an event source has one connection: some chunks, and then the end of the
body or an error. `ingest` puts the events of a chunk in front of those that wait, and
`next_event` takes from the back, so the events that wait are a queue in reverse. Whatever
number of events the chunks complete, and whenever they come, the calls return the events of
the stream in order and then how it ended.
-/

namespace TokioCronet.Sse

variable {p : SseParser} {s s' : EventSource} {net : Network} {chunks : List (List UInt8)}
  {failure : Option Error} {answers : List Answer}

theorem SseParser.feed_append (p : SseParser) (chunks chunks' : List (List UInt8)) :
    p.feed (chunks ++ chunks') = ((p.feed chunks).1 ++ ((p.feed chunks).2.feed chunks').1,
      ((p.feed chunks).2.feed chunks').2) := by
  induction chunks generalizing p with
  | nil => rfl
  | cons chunk chunks ih =>
    rw [List.cons_append, SseParser.feed]
    dsimp only
    rw [ih]
    dsimp only [SseParser.feed]
    rw [List.append_assoc]

/-- The caller reads, and does not cancel the connection. -/
def Action.Reads : Action → Prop
  | .cancel _ => False
  | _ => True

namespace Session

/-- The answers to the calls on a connection: its events, and how it ended, and then that there
are no more. -/
def answered (es : List SseEvent) (failure : Option Error) (further : ℕ) : List Answer :=
  (es.map fun e => some (.ok e)) ++ failure.map .error :: List.replicate further none

/-- How far a connection has been read and returned. -/
inductive Position (p : SseParser) (chunks : List (List UInt8)) (failure : Option Error)
    (s : EventSource) (answers : List Answer) : Prop
  /-- Some chunks are read, and of their events some are returned and the others wait. -/
  | reading (done rest : List (List UInt8)) (es : List SseEvent) (hchunks : chunks = done ++ rest)
      (hbody : s.body = some (EventSource.connection rest failure))
      (hparser : s.parser = (p.feed done).2)
      (hpending : events (p.feed done).1 = es ++ s.pending.reverse)
      (hanswers : answers = es.map fun e => some (.ok e))
  | ended (further : ℕ) (hbody : s.body = some []) (hpending : s.pending = [])
      (hanswers : answers = answered (events (p.feed chunks).1) failure further)

/-- **What holds between the actions.** -/
structure DeliveryInv (p : SseParser) (chunks : List (List UInt8)) (failure : Option Error)
    (c : Session) (answers : List Answer) : Prop where
  /-- There is no reconnect. -/
  autoReconnect : c.source.autoReconnect = false
  /-- A call waits for a chunk, if it waits. -/
  future : c.future = none ∨ c.future = some .chunk
  /-- The answers are where the source stands. -/
  position : Position p chunks failure c.source answers

theorem position_body (h : Position p chunks failure s answers) : s.body ≠ none := by
  cases h with
  | reading done rest es _ hbody =>
    rw [hbody]
    exact Option.some_ne_none _
  | ended further hbody =>
    rw [hbody]
    exact Option.some_ne_none _

/-- The oldest event that waits is the next to return. -/
theorem delivery_top (hauto : s.autoReconnect = false) (h : Position p chunks failure s answers)
    (net : Network) :
    DeliveryInv p chunks failure (top s net).1 (answers ++ (top s net).2) := by
  rcases top_cases s net with ⟨waiting, event, hwaiting, htop⟩ | ⟨-, hbody, -⟩ | ⟨-, -, htop⟩
  · rw [htop]
    refine ⟨hauto, .inl rfl, ?_⟩
    cases h with
    | reading done rest es hchunks hbody hparser hpending hanswers =>
      refine .reading done rest (es ++ [event]) hchunks hbody hparser ?_ ?_
      · rw [hpending, hwaiting, List.reverse_concat, List.append_assoc]
        rfl
      · rw [hanswers, List.map_append]
        rfl
    | ended further _ hpending =>
      rw [hpending] at hwaiting
      exact absurd hwaiting.symm (List.concat_ne_nil event waiting)
  · exact absurd hbody (position_body h)
  · rw [htop, List.append_nil]
    exact ⟨hauto, .inr rfl, h⟩

/-- A chunk's events go behind those that wait. -/
theorem position_ingest {chunk : List UInt8} {items : Body} (hnil : s.pending = [])
    (hbody : s.body = some (.ok chunk :: items)) (h : Position p chunks failure s answers) :
    Position p chunks failure (({ s with body := some items }).ingest chunk) answers := by
  have hqueue := EventSource.ingest_pending { s with body := some items } chunk
  obtain ⟨hb, hp, -⟩ := EventSource.ingest_other { s with body := some items } chunk
  cases h with
  | reading done rest es hchunks hbody' hparser hpending hanswers =>
    rw [hbody, Option.some.injEq] at hbody'
    cases rest with
    | nil => cases failure <;> cases hbody'
    | cons next rest =>
      obtain ⟨hchunk, hitems⟩ := List.cons.inj hbody'
      obtain rfl := Except.ok.inj hchunk
      have hread : p.feed (done ++ [chunk]) = ((p.feed done).1 ++ (s.parser.push chunk).1,
          (s.parser.push chunk).2) := by
        rw [SseParser.feed_append, ← hparser]
        dsimp only [SseParser.feed]
        rw [List.append_nil]
      refine .reading (done ++ [chunk]) rest es ?_ ?_ ?_ ?_ hanswers
      · rw [hchunks, List.append_assoc]
        rfl
      · rw [hb, hitems]
        rfl
      · rw [hp, hread]
      · rw [hread, hqueue, events_append, hpending, hnil, List.reverse_append,
          List.reverse_reverse]
        show _ = es ++ ([] ++ events (s.parser.push chunk).1)
        rw [List.reverse_nil, List.append_nil, List.nil_append]
  | ended further hbody' =>
    rw [hbody, Option.some.injEq] at hbody'
    cases hbody'

/-- The connection is read to its end, and everything returned. -/
theorem position_lost {failure' : Option Error} {items : Body} (hnil : s.pending = [])
    (hbody : s.body = some items) (hhead : items.head? = failure'.map .error)
    (h : Position p chunks failure s answers) :
    Position p chunks failure { s with body := some items.tail }
      (answers ++ [failure'.map .error]) := by
  cases h with
  | reading done rest es hchunks hbody' hparser hpending hanswers =>
    obtain rfl := Option.some.inj (hbody.symm.trans hbody')
    cases rest with
    | nil =>
      obtain rfl : failure' = failure := by
        cases failure <;> cases failure' <;> cases hhead <;> rfl
      refine .ended 0 ?_ hnil ?_
      · show some (EventSource.connection [] failure').tail = some []
        cases failure' <;> rfl
      · rw [hnil, List.reverse_nil, List.append_nil] at hpending
        rw [hchunks, List.append_nil, hpending, hanswers]
        rfl
    | cons chunk rest => cases failure' <;> cases hhead
  | ended further hbody' _ hanswers =>
    obtain rfl := Option.some.inj (hbody.symm.trans hbody')
    obtain rfl : failure' = none := by
      cases failure' with
      | none => rfl
      | some e => cases hhead
    refine .ended (further + 1) rfl hnil ?_
    rw [hanswers, answered, answered, List.append_assoc, List.cons_append, List.replicate_succ']
    rfl

variable {c : Session} {a : Action} {l : List Action}

theorem delivery_act (h : DeliveryInv p chunks failure c answers) (hw : Waits c)
    (ha : a.Reads) :
    DeliveryInv p chunks failure (c.act a).1 (answers ++ (c.act a).2) := by
  obtain ⟨s, net, future⟩ := c
  obtain ⟨hauto, hfuture, hposition⟩ := h
  cases a with
  | call =>
    rw [act]
    split
    · exact delivery_top hauto hposition net
    · rw [List.append_nil]
      exact ⟨hauto, hfuture, hposition⟩
  | drop =>
    rw [act, List.append_nil]
    exact ⟨hauto, .inl rfl, hposition⟩
  | cancel rest => exact ha.elim
  | wake =>
    rw [act]
    rcases hfuture with rfl | rfl
    · rw [wake, List.append_nil]
      exact ⟨hauto, .inl rfl, hposition⟩
    have hnil : s.pending = [] := hw.pending (Option.some_ne_none _)
    have hlost : ∀ items failure', s.body = some items → items.head? = failure'.map .error →
        DeliveryInv p chunks failure (lost { s with body := some items.tail } net failure').1
          (answers ++ (lost { s with body := some items.tail } net failure').2) := by
      intro items failure' hbody hhead
      rw [lost, if_neg (by rw [hauto]; exact Bool.false_ne_true)]
      exact ⟨hauto, .inl rfl, position_lost hnil hbody hhead hposition⟩
    rw [wake]
    dsimp only
    split
    · rename_i hbody
      exact absurd hbody (position_body hposition)
    · rename_i hbody
      have hend := hlost [] none hbody rfl
      rwa [List.tail_nil, ← hbody] at hend
    · rename_i e items hbody
      exact hlost (.error e :: items) (some e) hbody rfl
    · rename_i chunk items hbody
      refine delivery_top ?_ (position_ingest hnil hbody hposition) net
      rw [(EventSource.ingest_other _ chunk).2.2.1]
      exact hauto

theorem delivery_run (l : List Action) : ∀ {c : Session} {answers : List Answer},
    DeliveryInv p chunks failure c answers → Waits c → (∀ a ∈ l, a.Reads) →
    DeliveryInv p chunks failure (c.run l).1 (answers ++ (c.run l).2) := by
  induction l with
  | nil =>
    intro c answers h _ _
    rw [run, List.append_nil]
    exact h
  | cons a l ih =>
    intro c answers h hw hl
    rw [List.forall_mem_cons] at hl
    rw [run, ← List.append_assoc]
    exact ih (delivery_act h hw hl.1) (waits_act hw a) hl.2

/-! ## A call returns -/

/-- Chunks that complete no event are passed over. -/
theorem wakes_answer (hauto : s.autoReconnect = false) (items : Body)
    (hbody : s.body = some items) (net : Network) :
    ∃ j, ((⟨s, net, some .chunk⟩ : Session).run (List.replicate j .wake)).2.length = 1 := by
  induction items generalizing s with
  | nil =>
    refine ⟨1, ?_⟩
    rw [List.replicate_one, run, run, act, wake]
    dsimp only
    rw [hbody]
    dsimp only
    rw [lost, if_neg (by rw [hauto]; exact Bool.false_ne_true)]
    rfl
  | cons item items ih =>
    cases item with
    | error e =>
      refine ⟨1, ?_⟩
      rw [List.replicate_one, run, run, act, wake]
      dsimp only
      rw [hbody]
      dsimp only
      rw [lost, if_neg (by dsimp only; rw [hauto]; exact Bool.false_ne_true)]
      rfl
    | ok chunk =>
      have hwake : wake ⟨s, net, some .chunk⟩ =
          top (({ s with body := some items }).ingest chunk) net := by
        rw [wake]
        dsimp only
        rw [hbody]
      obtain ⟨hb, -, ha, -⟩ := EventSource.ingest_other { s with body := some items } chunk
      revert hwake hb ha
      generalize ({ s with body := some items } : EventSource).ingest chunk = s'
      intro hwake hb ha
      rcases top_cases s' net with ⟨waiting, event, -, htop⟩ | ⟨-, hnone, -⟩ | ⟨-, -, htop⟩
      · refine ⟨1, ?_⟩
        rw [List.replicate_one, run, run, act, hwake, htop]
        rfl
      · rw [hb] at hnone
        cases hnone
      · obtain ⟨j, hj⟩ := ih (ha.trans hauto) hb
        refine ⟨j + 1, ?_⟩
        rw [List.replicate_succ, run, act, hwake, htop]
        exact hj

theorem call_answers (h : DeliveryInv p chunks failure c answers) :
    ∃ j, (c.run (.call :: List.replicate j .wake)).2.length = 1 := by
  obtain ⟨s, net, future⟩ := c
  obtain ⟨hauto, hfuture, hposition⟩ := h
  obtain ⟨items, hbody⟩ := Option.ne_none_iff_exists'.mp (position_body hposition)
  rcases hfuture with rfl | rfl
  · rcases top_cases s net with ⟨waiting, event, -, htop⟩ | ⟨-, hnone, -⟩ | ⟨-, -, htop⟩
    · refine ⟨0, ?_⟩
      rw [run, act, if_pos rfl, htop]
      rfl
    · exact absurd hnone (position_body hposition)
    · obtain ⟨j, hj⟩ := wakes_answer hauto items hbody net
      refine ⟨j, ?_⟩
      rw [run, act, if_pos rfl, htop]
      exact hj
  · obtain ⟨j, hj⟩ := wakes_answer hauto items hbody net
    refine ⟨j, ?_⟩
    rw [run, act, if_neg (Option.some_ne_none _)]
    exact hj

/-- What has been read of the connection and is not returned waits in reverse. -/
structure Queued (p : SseParser) (chunks : List (List UInt8)) (failure : Option Error)
    (s : EventSource) (answers : List Answer) (done rest : List (List UInt8)) : Prop where
  /-- What was read of the connection, and the rest. -/
  chunks : chunks = done ++ rest
  /-- The body has the rest, until the end was read. -/
  body : s.body = some (EventSource.connection rest failure) ∨ rest = [] ∧ s.body = some []
  /-- The events of what was read are returned or pending. -/
  pending : events (p.feed done).1 = returned answers ++ s.pending.reverse

theorem returned_answered (es : List SseEvent) (failure : Option Error) (further : ℕ) :
    returned (answered es failure further) = es := by
  have hnone : returned (List.replicate further none) = [] := by
    rw [returned, List.filterMap_replicate]
  rw [answered, returned_append, returned_map]
  cases failure with
  | none =>
    show es ++ returned (List.replicate further none) = es
    rw [hnone, List.append_nil]
  | some e =>
    show es ++ returned (List.replicate further none) = es
    rw [hnone, List.append_nil]

theorem position_queued (h : Position p chunks failure s answers) :
    ∃ done rest, Queued p chunks failure s answers done rest := by
  cases h with
  | reading done rest es hchunks hbody _ hpending hanswers =>
    refine ⟨done, rest, hchunks, .inl hbody, ?_⟩
    rw [hanswers, returned_map]
    exact hpending
  | ended further hbody hpending hanswers =>
    refine ⟨chunks, [], (List.append_nil _).symm, .inr ⟨rfl, hbody⟩, ?_⟩
    rw [hanswers, returned_answered, hpending, List.reverse_nil, List.append_nil]

theorem position_answers (h : Position p chunks failure s answers) :
    answers <+: answered (events (p.feed chunks).1) failure answers.length := by
  cases h with
  | reading done rest es hchunks _ _ hpending hanswers =>
    rw [hchunks, SseParser.feed_append, events_append, hpending, answered, hanswers,
      List.map_append, List.map_append]
    exact ⟨_, by rw [List.append_assoc, List.append_assoc]⟩
  | ended further _ _ hanswers =>
    obtain ⟨more, hmore⟩ : ∃ more, answers.length = further + more := by
      refine ⟨answers.length - further, ?_⟩
      rw [hanswers, answered, List.length_append, List.length_cons, List.length_replicate]
      omega
    rw [hmore, answered, List.replicate_add]
    refine ⟨List.replicate more none, ?_⟩
    rw [hanswers, answered, List.append_assoc]
    rfl

/-- **The calls return the events of the stream, and then how it ended.** -/
theorem events_in_order (hauto : s.autoReconnect = false) (hpending : s.pending = [])
    (hbody : s.body = some (EventSource.connection chunks failure)) (net : Network)
    (hl : ∀ a ∈ l, a.Reads) :
    let r := (fresh s net).run l
    r.2 <+: answered (events (s.parser.feed chunks).1) failure r.2.length ∧
      (∃ done rest, Queued s.parser chunks failure r.1.source r.2 done rest) ∧
      ∃ j, (r.1.run (.call :: List.replicate j .wake)).2.length = 1 := by
  have hstart : DeliveryInv s.parser chunks failure (fresh s net) [] := by
    refine ⟨hauto, .inl rfl, .reading [] chunks [] rfl hbody rfl ?_ rfl⟩
    show [] = [] ++ s.pending.reverse
    rw [hpending]
    rfl
  have hend : DeliveryInv s.parser chunks failure ((fresh s net).run l).1
      ((fresh s net).run l).2 := delivery_run l hstart (waits_idle s net) hl
  exact ⟨position_answers hend.position, position_queued hend.position, call_answers hend⟩

/-- Two events in one chunk, and an error behind them. -/
theorem events_in_order_failed :
    let s := { EventSource.opened (EventSource.connection
        [str "data:a\n\ndata:b\n\n"] (some (.invalidString "x"))) with autoReconnect := false }
    ((fresh s ⟨[], []⟩).run [.call, .wake]).2 <+:
      answered [⟨none, str "message", str "a"⟩, ⟨none, str "message", str "b"⟩]
        (some (.invalidString "x")) 1 := by
  have hall := events_in_order (l := [.call, .wake]) (s := { EventSource.opened
    (EventSource.connection [str "data:a\n\ndata:b\n\n"] (some (.invalidString "x"))) with
      autoReconnect := false }) rfl rfl rfl ⟨[], []⟩ (List.forall_mem_cons.mpr
        ⟨trivial, List.forall_mem_singleton.mpr trivial⟩)
  exact hall.1

end Session

end TokioCronet.Sse
