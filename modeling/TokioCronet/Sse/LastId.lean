import TokioCronet.Sse.Blocks
import TokioCronet.Sse.Requests

/-!
# The last event id

Two things are asked of the id that an event source would resume from. It is to be where
the caller is; but the parser sets it as it reads a chunk, and the events of the chunk are
handed out one a call, so it is ahead of the caller as soon as a chunk brings two ids. And
it is to be fit for a header whatever the server sends; which it is, because it is a part
of a line, of a line that is UTF-8, and has no NUL.
-/

namespace TokioCronet.Sse

open Standard

/-- `EventSource::last_event_id` -/
def EventSource.lastEventId (s : EventSource) : Option Str := s.parser.lastId

/-- The id of the last of the events that has one. -/
def lastIdOf (init : Option Str) (es : List SseEvent) : Option Str :=
  (es.filterMap SseEvent.id).getLast?.or init

/-- The events among the answers of `next_event`. -/
def returned (answers : List Answer) : List SseEvent :=
  answers.filterMap fun
    | some (.ok event) => some event
    | _ => none

variable {init : Option Str} {p : SseParser} {line chunk : List UInt8} {e : SseEvent}
  {es : List SseEvent}

theorem lastIdOf_append (init : Option Str) (es es' : List SseEvent) :
    lastIdOf init (es ++ es') = lastIdOf (lastIdOf init es) es' := by
  rw [lastIdOf, List.filterMap_append, List.getLast?_append, Option.or_assoc]
  rfl

theorem lastIdOf_singleton (init : Option Str) (e : SseEvent) :
    lastIdOf init [e] = e.id.or init := by
  rw [lastIdOf, List.filterMap_cons]
  cases e.id <;> rfl

/-- Events that bring no other id. -/
theorem lastIdOf_same (h : ∀ e ∈ es, e.id = none ∨ e.id = init) : lastIdOf init es = init := by
  induction es using List.reverseRec with
  | nil => rfl
  | append_singleton es e ih =>
    rw [lastIdOf_append, lastIdOf_singleton, ih fun x hx => h x (List.mem_append_left _ hx)]
    rcases h e (List.mem_append_right _ (List.mem_singleton_self e)) with he | he
    · rw [he, Option.none_or]
    · rw [he, Option.or_self]

theorem returned_append (answers answers' : List Answer) :
    returned (answers ++ answers') = returned answers ++ returned answers' :=
  List.filterMap_append

/-! ## The parser sets it -/

theorem lastId_dispatch (p : SseParser) :
    p.dispatch.2.lastId = lastIdOf p.lastId (events p.dispatch.1.toList) := by
  unfold SseParser.dispatch
  split
  · rfl
  · rw [Option.toList_some]
    show _ = lastIdOf p.lastId [_]
    rw [lastIdOf_singleton]
    cases p.id <;> rfl

theorem lastId_pushLine (p : SseParser) (line : List UInt8) :
    (p.pushLine line).2.lastId = lastIdOf p.lastId (events (p.pushLine line).1.toList) := by
  by_cases hline : line = []
  · rw [hline, SseParser.pushLine, if_pos rfl]
    exact lastId_dispatch p
  · rw [pushLine_take p hline]
    rcases strict line with - | (_ | _ | _ | _) <;> rfl

theorem lastId_readLines (ls : List (List UInt8)) : ∀ p : SseParser,
    (p.readLines ls).2.lastId = lastIdOf p.lastId (events (p.readLines ls).1) := by
  induction ls with
  | nil => exact fun p => rfl
  | cons line ls ih =>
    intro p
    rw [SseParser.readLines, ih, lastId_pushLine, events_append, lastIdOf_append]

/-- **The last id is that of the last event.** -/
theorem lastId_push (p : SseParser) (chunk : List UInt8) :
    (p.push chunk).2.lastId = lastIdOf p.lastId (events (p.push chunk).1) := by
  rw [SseParser.push_eq]
  exact lastId_readLines _ p

/-! ## The caller is where the last id is -/

/-- The chunk that an action hands to the parser. -/
def chunkAt (c : Session) : Action → Option (List UInt8)
  | .wake =>
    match c.future, c.source.body with
    | some .chunk, some (.ok chunk :: _) => some chunk
    | _, _ => none
  | _ => none

/-- Of the events that the chunk completes only the first brings a new id. -/
def OneId (p : SseParser) (chunk : List UInt8) : Prop :=
  ∀ e ∈ (events (p.push chunk).1).tail,
    e.id = none ∨ e.id = lastIdOf p.lastId ((events (p.push chunk).1).take 1)

instance (p : SseParser) (chunk : List UInt8) : Decidable (OneId p chunk) := by
  unfold OneId
  infer_instance

theorem chunkAt_some {c : Session} {a : Action} (h : chunk ∈ chunkAt c a) :
    a = .wake ∧ c.future = some .chunk ∧
      ∃ items, c.source.body = some (.ok chunk :: items) := by
  unfold chunkAt at h
  split at h
  · split at h
    · rename_i hfuture hbody
      cases h
      exact ⟨rfl, hfuture, _, hbody⟩
    · cases h
  · cases h

/-- So it is with every chunk of the run. -/
def OneIdEach (c : Session) (l : List Action) : Prop :=
  ∀ pre a post, l = pre ++ a :: post →
    ∀ chunk ∈ chunkAt (c.run pre).1 a, OneId (c.run pre).1.source.parser chunk

/-- The last id is that of the last event returned. -/
def AtCaller (init : Option Str) (r : Session × List Answer) : Prop :=
  r.1.source.lastEventId = lastIdOf init (returned r.2)

namespace Session

variable {c : Session} {s s' s₀ : EventSource} {net net' net₀ : Network}
  {answers answers' : List Answer} {a : Action} {l : List Action}

/-- What holds of a source and its answers as long as chunks bring one id each. -/
structure CursorInv (init : Option Str) (s : EventSource) (answers : List Answer) : Prop where
  /-- The last id is that of the last event that was returned. -/
  lastId : s.parser.lastId = lastIdOf init (returned answers)
  /-- A pending event has this id or none. -/
  pending : ∀ e ∈ s.pending, e.id = none ∨ e.id = lastIdOf init (returned answers)

/-- Answers that are no events, and nothing read. -/
theorem CursorInv.still (h : CursorInv init s answers) (hparser : s'.parser = s.parser)
    (hpending : s'.pending = s.pending) (hnone : returned answers' = []) :
    CursorInv init s' (answers ++ answers') := by
  refine ⟨?_, ?_⟩
  · rw [hparser, returned_append, hnone, List.append_nil]
    exact h.lastId
  · rw [hpending, returned_append, hnone, List.append_nil]
    exact h.pending

/-- The oldest event is handed out. -/
theorem cursor_top (h : CursorInv init s answers) :
    CursorInv init (top s net).1.source (answers ++ (top s net).2) := by
  rcases top_cases s net with ⟨pending, e, hpending, htop⟩ | ⟨-, -, htop⟩ | ⟨-, -, htop⟩
  · have hids := h.pending
    rw [hpending] at hids
    have hsame : e.id.or (lastIdOf init (returned answers)) = lastIdOf init (returned answers) := by
      rcases hids e (List.mem_append_right _ (List.mem_singleton_self e)) with hid | hid
      · rw [hid, Option.none_or]
      · rw [hid, Option.or_self]
    have hreturned : lastIdOf init (returned (answers ++ [some (.ok e)])) =
        lastIdOf init (returned answers) := by
      rw [returned_append, lastIdOf_append]
      exact (lastIdOf_singleton _ e).trans hsame
    rw [htop]
    refine ⟨h.lastId.trans hreturned.symm, ?_⟩
    rw [hreturned]
    exact fun x hx => hids x (List.mem_append_left _ hx)
  · rw [htop]
    exact h.still rfl rfl rfl
  · rw [htop]
    exact h.still rfl rfl rfl

/-- The oldest of the events is handed out. -/
theorem top_pending (h : s.pending = es.reverse ++ [e]) :
    top s net = (⟨{ s with pending := es.reverse }, net, none⟩, [some (.ok e)]) := by
  rcases top_cases s net with ⟨pending, x, hx, htop⟩ | ⟨hnil, -⟩ | ⟨hnil, -⟩
  · obtain ⟨rfl, hx'⟩ := List.append_inj' (h.symm.trans hx) rfl
    rw [htop, List.singleton_inj.mp hx']
  · exact absurd (h.symm.trans hnil) (List.append_ne_nil_of_right_ne_nil _ (by simp))
  · exact absurd (h.symm.trans hnil) (List.append_ne_nil_of_right_ne_nil _ (by simp))

theorem top_ingest (hpending : s.pending = []) (hes : events (s.parser.push chunk).1 = e :: es) :
    top (s.ingest chunk) net =
      (⟨{ s.ingest chunk with pending := es.reverse }, net, none⟩, [some (.ok e)]) := by
  refine top_pending ?_
  rw [EventSource.ingest_pending, hpending, List.append_nil, hes, List.reverse_cons]

/-- **A chunk with one id.** -/
theorem cursor_ingest (h : CursorInv init s answers) (hpending : s.pending = [])
    (hone : OneId s.parser chunk) :
    CursorInv init (top (s.ingest chunk) net).1.source
      (answers ++ (top (s.ingest chunk) net).2) := by
  have hparser : (s.ingest chunk).parser.lastId =
      lastIdOf (lastIdOf init (returned answers)) (events (s.parser.push chunk).1) := by
    rw [(s.ingest_other chunk).2.1, lastId_push, h.lastId]
  rw [OneId, h.lastId] at hone
  cases hes : events (s.parser.push chunk).1 with
  | nil =>
    have hqueue : (s.ingest chunk).pending = [] := by
      rw [EventSource.ingest_pending, hpending, hes]
      rfl
    rw [hes] at hparser
    exact cursor_top ⟨hparser, by rw [hqueue]; exact List.forall_mem_nil _⟩
  | cons e es =>
    rw [hes] at hparser hone
    have hreturned : lastIdOf init (returned (answers ++ [some (.ok e)])) =
        lastIdOf (lastIdOf init (returned answers)) [e] := by
      rw [returned_append, lastIdOf_append]
      rfl
    have hrest : ∀ x ∈ es, x.id = none ∨
        x.id = lastIdOf (lastIdOf init (returned answers)) [e] := hone
    rw [top_ingest hpending hes]
    refine ⟨?_, ?_⟩
    · -- the ids of the other events change nothing
      rw [hreturned]
      refine hparser.trans ?_
      rw [← List.singleton_append, lastIdOf_append]
      exact lastIdOf_same hrest
    · rw [hreturned]
      exact fun x hx => hrest x (List.mem_reverse.mp hx)

/-- **What an action does.** -/
theorem cursor_act (h : CursorInv init c.source answers) (hw : Waits c)
    (hone : ∀ chunk ∈ chunkAt c a, OneId c.source.parser chunk) :
    CursorInv init (c.act a).1.source (answers ++ (c.act a).2) := by
  have hlost : ∀ s' failure, s'.parser = c.source.parser → s'.pending = c.source.pending →
      CursorInv init (lost s' c.net failure).1.source (answers ++ (lost s' c.net failure).2) := by
    intro s' failure hparser hpending
    unfold lost
    split
    · exact h.still hparser hpending rfl
    · cases failure <;> exact h.still hparser hpending rfl
  cases a with
  | call =>
    rw [act]
    split
    · exact cursor_top h
    · exact h.still rfl rfl rfl
  | drop => exact h.still rfl rfl rfl
  | cancel rest => exact h.still rfl rfl rfl
  | wake =>
    rw [act]
    unfold wake
    split
    · exact h.still rfl rfl rfl
    · rename_i hfuture
      have hpending : c.source.pending = [] := hw.pending (hfuture ▸ Option.some_ne_none _)
      split
      · exact h.still rfl rfl rfl
      · exact hlost _ _ rfl rfl
      · exact hlost _ _ rfl rfl
      · rename_i chunk items hbody
        have hchunk : chunkAt c .wake = some chunk := by rw [chunkAt, hfuture, hbody]
        exact @cursor_ingest init chunk { c.source with body := some items } c.net answers
          ⟨h.lastId, h.pending⟩ hpending (hone chunk hchunk)
    · unfold resend
      split
      · exact h.still rfl rfl rfl
      · exact h.still rfl rfl rfl
    · exact h.still rfl rfl rfl
    · exact h.still rfl rfl rfl
    · rename_i body _
      exact @cursor_top init { c.source with body := some body } c.net answers
        ⟨h.lastId, h.pending⟩

theorem cursor_run (l : List Action) : ∀ {c : Session} {answers : List Answer},
    CursorInv init c.source answers → Waits c → OneIdEach c l →
      CursorInv init (c.run l).1.source (answers ++ (c.run l).2) := by
  induction l with
  | nil =>
    intro c answers h _ _
    rwa [run, List.append_nil]
  | cons a l ih =>
    intro c answers h hw hone
    rw [run, ← List.append_assoc]
    refine ih (cursor_act h hw (hone [] a l rfl)) (waits_act hw a) ?_
    rintro pre a' post rfl
    exact hone (a :: pre) a' post rfl

/-- An event source starts with nothing but the id it is opened with. -/
theorem opened_fresh {b : EventSourceBuilder} (hopen : b.openSource net₀ = (some (.ok s), net)) :
    s.pending = [] ∧ s.parser = { lastId := b.lastEventId } := by
  unfold EventSourceBuilder.openSource at hopen
  split at hopen
  · cases hopen
  · split at hopen
    · cases hopen
    · cases hopen
    · cases hopen
      exact ⟨rfl, rfl⟩

/-! ## Another id shows -/

/-- Calls hand out what is pending, the oldest first. -/
theorem run_calls (net : Network) (k : ℕ) : ∀ {s : EventSource} {es : List SseEvent},
    s.pending = es.reverse → k ≤ es.length →
      run ⟨s, net, none⟩ (List.replicate k .call) =
        (⟨{ s with pending := (es.drop k).reverse }, net, none⟩,
          (es.take k).map fun e => some (.ok e)) := by
  induction k with
  | zero =>
    intro s es hs _
    rw [List.replicate_zero, run, List.drop_zero, List.take_zero, ← hs]
    rfl
  | succ k ih =>
    intro s es hs hk
    cases es with
    | nil => cases hk
    | cons e es =>
      rw [List.reverse_cons] at hs
      rw [List.replicate_succ, run, act, if_pos rfl, top_pending hs]
      dsimp only
      rw [@ih { s with pending := es.reverse } es rfl (Nat.le_of_succ_le_succ hk)]
      rfl

/-- The returned events of calls that only hand out what is pending. -/
theorem returned_map (es : List SseEvent) : returned (es.map fun e => some (.ok e)) = es := by
  rw [returned, List.filterMap_map]
  exact List.filterMap_some

/-- An id that stays the same while events go by. -/
theorem ids_of_steady {last : Option Str} (h : ∀ k ≤ es.length, last = lastIdOf init (es.take k)) :
    ∀ e ∈ es, e.id = none ∨ e.id = init := by
  intro e he
  obtain ⟨i, hi, rfl⟩ := List.getElem_of_mem he
  have hbefore := h i (Nat.le_of_lt hi)
  have hafter := h (i + 1) hi
  have hinit : last = init := h 0 (Nat.zero_le _)
  rw [List.take_add_one, List.getElem?_eq_getElem hi, Option.toList_some, lastIdOf_append,
    lastIdOf_singleton, ← hbefore, hinit] at hafter
  cases hid : es[i].id with
  | none => exact .inl rfl
  | some id =>
    rw [hid, Option.some_or] at hafter
    exact .inr hafter.symm

/-- Calls hand nothing to the parser. -/
theorem oneIdEach_calls {pre : List Action} (hpre : pre <+: l) (h : OneIdEach c l) (k : ℕ) :
    OneIdEach c (pre ++ List.replicate k .call) := by
  rintro pre' a post heq chunk hchunk
  rcases List.append_eq_append_iff.mp heq with ⟨calls, rfl, hcalls⟩ | ⟨rest, rfl, hrest⟩
  · have hmem : a ∈ List.replicate k Action.call :=
      hcalls ▸ List.mem_append_right _ List.mem_cons_self
    rw [(List.mem_replicate.mp hmem).2] at hchunk
    cases hchunk
  · cases rest with
    | nil =>
      have hmem : a ∈ List.replicate k Action.call := by
        rw [List.nil_append] at hrest
        exact hrest ▸ List.mem_cons_self
      rw [(List.mem_replicate.mp hmem).2] at hchunk
      cases hchunk
    | cons a' rest =>
      obtain ⟨rfl, -⟩ := List.cons.inj hrest
      obtain ⟨post', rfl⟩ := hpre
      exact h pre' a (rest ++ post') (by simp) chunk hchunk

/-- **The last id is where the caller is exactly if no chunk brings two.** The calls of
`next_event` that may follow are what tells. -/
theorem last_id_iff {b : EventSourceBuilder} (hopen : b.openSource net₀ = (some (.ok s), net))
    (l : List Action) :
    (∀ pre k, pre <+: l →
      AtCaller b.lastEventId ((fresh s net).run (pre ++ List.replicate k .call))) ↔
      OneIdEach (fresh s net) l := by
  obtain ⟨hpending, hparser⟩ := opened_fresh hopen
  have hstart : CursorInv b.lastEventId s [] :=
    ⟨by rw [hparser]; rfl, by rw [hpending]; exact List.forall_mem_nil _⟩
  constructor
  · rintro hcaller pre a post rfl chunk hchunk
    have hpre : pre <+: pre ++ a :: post := ⟨_, rfl⟩
    have hread : pre ++ [a] <+: pre ++ a :: post := ⟨post, by simp⟩
    have hbefore : AtCaller b.lastEventId ((fresh s net).run pre) := by
      simpa using hcaller pre 0 hpre
    have hw : Waits ((fresh s net).run pre).1 := waits_run pre _ (waits_idle s net)
    have hafter := fun k => hcaller (pre ++ [a]) k hread
    simp only [AtCaller, run_append] at hafter
    rw [AtCaller] at hbefore
    revert hbefore hw hafter hchunk
    generalize (fresh s net).run pre = r
    obtain ⟨c, answers⟩ := r
    intro hchunk hbefore hw hafter
    obtain ⟨rfl, hfuture, items, hbody⟩ := chunkAt_some hchunk
    have hnil : c.source.pending = [] := hw.pending (hfuture ▸ Option.some_ne_none _)
    cases hes : events (c.source.parser.push chunk).1 with
    | nil => rw [OneId, hes]; exact List.forall_mem_nil _
    | cons e es =>
      -- the state after the read, and the calls that hand out the rest
      have hwake : c.wake = (⟨{ ({ c.source with body := some items }).ingest chunk with
          pending := es.reverse }, c.net, none⟩, [some (.ok e)]) := by
        rw [wake, hfuture]
        dsimp only
        rw [hbody]
        exact @top_ingest chunk e es { c.source with body := some items } c.net hnil hes
      have hlast : (({ c.source with body := some items }).ingest chunk).parser.lastId =
          lastIdOf c.source.parser.lastId (e :: es) := by
        rw [(EventSource.ingest_other _ chunk).2.1, lastId_push, hes]
      suffices hsteady : ∀ k ≤ es.length, lastIdOf c.source.parser.lastId (e :: es) =
          lastIdOf (lastIdOf c.source.parser.lastId [e]) (es.take k) by
        rw [OneId, hes]
        exact ids_of_steady hsteady
      intro k hk
      have hk' := hafter k
      have hread : c.run [.wake] = c.wake := by
        rw [run, run, List.append_nil]
        rfl
      rw [hread, hwake] at hk'
      dsimp only at hk'
      rw [run_calls c.net k rfl hk] at hk'
      refine (hlast.symm.trans hk').trans ?_
      rw [returned_append, returned_append, returned_map, lastIdOf_append, lastIdOf_append,
        ← hbefore]
      rfl
  · intro hone pre k hpre
    exact (cursor_run _ hstart (waits_idle s net) (oneIdEach_calls hpre hone k)).lastId

theorem oneIdEach_cons (hone : ∀ chunk ∈ chunkAt c a, OneId c.source.parser chunk)
    (h : OneIdEach (c.act a).1 l) : OneIdEach c (a :: l) := by
  rintro pre a' post heq
  cases pre with
  | nil =>
    obtain ⟨rfl, -⟩ := List.cons.inj heq
    exact hone
  | cons a'' pre =>
    obtain ⟨rfl, rfl⟩ := List.cons.inj heq
    exact h pre a' post rfl

theorem oneIdEach_nil : OneIdEach c [] := by
  intro pre a post heq
  exact absurd heq.symm (List.append_ne_nil_of_right_ne_nil _ (List.cons_ne_nil _ _))

/-- Two events with ids, in chunks of their own. -/
def twoChunks : Body :=
  EventSource.connection [str "id:1\ndata:a\n\n", str "id:2\ndata:b\n\n"] none

/-- Both in one chunk. -/
def oneChunk : Body :=
  EventSource.connection [str "id:1\ndata:a\n\nid:2\ndata:b\n\n"] none

theorem last_id_iff_chunks :
    ∃ s net, EventSource.reconnecting.openSource { responses := [.ok twoChunks], requests := [] } =
        (some (.ok s), net) ∧
      AtCaller none ((fresh s net).run [.call, .wake]) ∧
      AtCaller none ((fresh s net).run [.call, .wake, .call, .wake]) := by
  have hopen : EventSource.reconnecting.openSource
      { responses := [.ok twoChunks], requests := [] } =
      (some (.ok (EventSource.opened twoChunks)),
        { responses := [], requests := [EventSource.reconnecting.request] }) := rfl
  have hone : OneIdEach (fresh (EventSource.opened twoChunks)
      { responses := [], requests := [EventSource.reconnecting.request] })
      [.call, .wake, .call, .wake] :=
    oneIdEach_cons (by decide +kernel) (oneIdEach_cons (by decide +kernel)
      (oneIdEach_cons (by decide +kernel) (oneIdEach_cons (by decide +kernel) oneIdEach_nil)))
  have hcaller := (last_id_iff hopen [.call, .wake, .call, .wake]).mpr hone
  exact ⟨_, _, hopen, hcaller [.call, .wake] 0 ⟨[.call, .wake], rfl⟩,
    hcaller [.call, .wake, .call, .wake] 0 ⟨[], rfl⟩⟩

/-- **The last id is ahead of the caller.** The second event is not returned yet. -/
theorem id_ahead :
    ∃ s net, EventSource.reconnecting.openSource { responses := [.ok oneChunk], requests := [] } =
        (some (.ok s), net) ∧
      ((fresh s net).run [.call, .wake]).2 = [some (.ok ⟨some (str "1"), str "message", str "a"⟩)] ∧
      ¬ AtCaller none ((fresh s net).run [.call, .wake]) := by
  refine ⟨EventSource.opened oneChunk, _, rfl, ?_, ?_⟩
  · decide +kernel
  · unfold AtCaller
    decide +kernel

end Session

/-! ## What a server can make of it -/

/-- What may stand in a header. -/
structure Fit (id : Str) : Prop where
  /-- It is text. -/
  utf8 : validUtf8 id = true
  /-- It has no zero. -/
  nul : (0 : UInt8) ∉ id
  /-- It has no carriage return. -/
  cr : cr ∉ id
  /-- It has no line feed. -/
  lf : lf ∉ id

/-- The parser's id, and its last id if it is not the first it had, fit a header. -/
structure Learnt (init : Option Str) (p : SseParser) : Prop where
  /-- The id that the parser has. -/
  id : ∀ id ∈ p.id, Fit id
  /-- The last id, if it has learnt it. -/
  lastId : p.lastId = init ∨ ∃ id, p.lastId = some id ∧ Fit id

/-- The id of a line is a part of it, and the line is UTF-8. -/
theorem fit_strict {id : Str} (hline : Unbroken line) (h : strict line = some (.id id)) :
    Fit id := by
  by_cases hvalid : validUtf8 line = true
  · rw [strict, splitField_valid hvalid] at h
    have hid := classify_id (rawField line).1 (rawField line).2 (parseU64 (rawField line).2)
    rw [h] at hid
    dsimp only [Option.bind_some, Field.id?] at hid
    split_ifs at hid with hname hnul
    obtain rfl := Option.some.inj hid
    have hun := rawField_unbroken hline
    refine ⟨valid_rawField hvalid, fun hmem => hnul (List.contains_iff_mem.mpr hmem), ?_, ?_⟩
    · exact fun hmem => hun Sse.cr hmem (.inr rfl)
    · exact fun hmem => hun Sse.lf hmem (.inl rfl)
  · rw [strict_invalid hvalid] at h
    cases h

theorem Learnt.dispatch (h : Learnt init p) : Learnt init p.dispatch.2 := by
  unfold SseParser.dispatch
  split
  · exact ⟨fun _ => nofun, h.lastId⟩
  · refine ⟨fun _ => nofun, ?_⟩
    dsimp only
    split
    · rename_i id hid
      exact .inr ⟨id, rfl, h.id id hid⟩
    · exact h.lastId

theorem Learnt.pushLine (h : Learnt init p) (hline : Unbroken line) :
    Learnt init (p.pushLine line).2 := by
  by_cases hblank : line = []
  · rw [hblank, SseParser.pushLine, if_pos rfl]
    exact h.dispatch
  rw [pushLine_take p hblank]
  rcases hread : strict line with - | (value | value | id | millis)
  · exact h
  · exact ⟨h.id, h.lastId⟩
  · exact ⟨h.id, h.lastId⟩
  · refine ⟨fun id' hid' => ?_, h.lastId⟩
    obtain rfl := Option.mem_some.mp hid'
    exact fit_strict hline hread
  · exact ⟨h.id, h.lastId⟩

theorem Learnt.readLines (ls : List (List UInt8)) : ∀ {p : SseParser}, Learnt init p →
    (∀ line ∈ ls, Unbroken line) → Learnt init (p.readLines ls).2 := by
  induction ls with
  | nil => exact fun h _ => h
  | cons line ls ih =>
    intro p h hls
    rw [List.forall_mem_cons] at hls
    exact ih (h.pushLine hls.1) hls.2

/-- **A chunk.** Its lines have no line end in them, wherever it was cut. -/
theorem Learnt.push (h : Learnt init p) (chunk : List UInt8) : Learnt init (p.push chunk).2 := by
  have hlines : ∀ line ∈ (SseParser.linesOf p.buffer [chunk]).1, Unbroken line := by
    rw [SseParser.linesOf, SseParser.linesOf, List.append_nil]
    exact unbroken_scan _
  have hread := Learnt.readLines _ h hlines
  rw [SseParser.push_eq]
  exact ⟨hread.id, hread.lastId⟩

namespace Session

variable {c : Session} {s s₀ : EventSource} {net net₀ : Network}

theorem learnt_top (h : Learnt init s.parser) (net : Network) :
    Learnt init (top s net).1.source.parser := by
  rcases top_cases s net with ⟨events, event, -, htop⟩ | ⟨-, -, htop⟩ | ⟨-, -, htop⟩
  · rw [htop]
    exact h
  · rw [htop]
    exact h
  · rw [htop]
    exact h

theorem learnt_act (h : Learnt init c.source.parser) (a : Action) :
    Learnt init (c.act a).1.source.parser := by
  have hlost : ∀ s failure, (lost s c.net failure).1.source.parser = s.parser := by
    intro s failure
    unfold lost
    split <;> rfl
  cases a with
  | call =>
    rw [act]
    split
    · exact learnt_top h c.net
    · exact h
  | drop => exact h
  | cancel rest => exact h
  | wake =>
    rw [act]
    unfold wake
    split
    · exact h
    · split
      · exact h
      · rw [hlost]
        exact h
      · rw [hlost]
        exact h
      · rename_i chunk items _
        refine learnt_top ?_ c.net
        rw [(EventSource.ingest_other _ chunk).2.1]
        exact h.push chunk
    · unfold resend
      split <;> exact h
    · exact h
    · exact h
    · exact @learnt_top init { c.source with body := some _ } h c.net

theorem learnt_run (l : List Action) : ∀ {c : Session}, Learnt init c.source.parser →
    Learnt init (c.run l).1.source.parser := by
  induction l with
  | nil => exact id
  | cons a l ih => exact fun h => ih (learnt_act h a)

/-- **What a server sends as an id fits a header.** The request of a reconnect can be built,
and it has the id behind the headers that it was opened with, as one header. -/
theorem learnt_id_fits {b : EventSourceBuilder} (hopen : b.openSource net₀ = (some (.ok s₀), net))
    (l : List Action) :
    let s := ((fresh s₀ net).run l).1.source
    (s.lastEventId = b.lastEventId ∨ ∃ id, s.lastEventId = some id ∧ Fit id) ∧
      ∃ request ids, s.reconnectRequest = .ok request ∧ IdHeader s.lastEventId ids ∧
        request.headers = s₀.headers ++ ids := by
  have hstart : Learnt b.lastEventId s₀.parser := by
    rw [(opened_fresh hopen).2]
    exact ⟨fun _ => nofun, .inl rfl⟩
  have hstays : Stays s₀ ((fresh s₀ net).run l).1.source := stays_run l (fresh s₀ net)
  have hsound := hstays.sound (EventSource.sourceInv_open hopen).parser
  obtain ⟨request, hrequest⟩ := EventSource.reconnectRequest_ok hsound
  obtain ⟨ids, hids, -, -, -, -, hheaders⟩ := rebuilt hrequest
  refine ⟨(learnt_run l hstart).lastId, request, ids, hrequest, hids, ?_⟩
  rw [hheaders, hstays.headers]

/-- An id that a server sent, and what it is. -/
theorem learnt_id_fits_chunks :
    ∃ s net, EventSource.reconnecting.openSource { responses := [.ok twoChunks], requests := [] } =
        (some (.ok s), net) ∧
      ((fresh s net).run [.call, .wake]).1.source.lastEventId = some (str "1") ∧
      ∃ id, ((fresh s net).run [.call, .wake]).1.source.lastEventId = some id ∧ Fit id := by
  have hopen : EventSource.reconnecting.openSource
      { responses := [.ok twoChunks], requests := [] } =
      (some (.ok (EventSource.opened twoChunks)),
        { responses := [], requests := [EventSource.reconnecting.request] }) := rfl
  have hlast : ((fresh (EventSource.opened twoChunks)
      { responses := [], requests := [EventSource.reconnecting.request] }).run
        [.call, .wake]).1.source.lastEventId = some (str "1") := by decide +kernel
  refine ⟨_, _, hopen, hlast, ?_⟩
  rcases (learnt_id_fits hopen [.call, .wake]).1 with hinit | hfit
  · rw [hlast] at hinit
    cases hinit
  · exact hfit

end Session

end TokioCronet.Sse
