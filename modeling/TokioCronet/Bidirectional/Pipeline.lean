import TokioCronet.Bidirectional.Order

/-!
# What a step does to a flush

A flush looks at more of the stream than a write does: at the receiver that the adapter
has stored, at the calls of the native flush, at the completions that have come, and at
what its sender was answered. The steps that touch any of it are listed here once, as
those that touch the write side are in another module.
-/

namespace TokioCronet.Bidirectional

open Pool

variable {cfg : Settings} {s s' : Shared} {t u : Thread} {ch : Choice} {ts : List Thread}

/-- The events that a flush is about, and the polls that return. -/
def Event.flows : Event → Bool
  | .accepted _ _ | .write _ _ | .flush | .answered _ _ => true
  | .callbackBegun (.writeCompleted _) => true
  | .polled _ (.ready _) | .polled _ (.failed _) => true
  | _ => false

/-- The part of the state that a flush is about. -/
structure Flow where
  state : WriteState
  receiver : Option Waiter
  next : Waiter
  started : Bool
  closed : Bool
  trace : List Event

/-- What a flush looks at of the state. -/
def Shared.flow (s : Shared) : Flow where
  state := s.write.state
  receiver := s.adapter.flushReceiver
  next := s.adapter.nextWaiter
  started := s.adapter.shutdownStarted
  closed := s.adapter.localClosed
  trace := s.trace.filter Event.flows

/-! ## What a thread is to a flush -/

/-- The waiter of a flush on its way into the native stream. -/
def GatedOp.carries (op : GatedOp) : Option (Waiter × Bool) :=
  match op with
  | .flush waiter => some (waiter, false)
  | _ => none

/-- The write loop has the sender of a flush in its hand; whether it has called the
native flush. -/
def Thread.carries : Thread → Option (Waiter × Bool)
  | .control (.lock op) | .control (.raw op) | .control (.started op) | .control (.done op)
  | .control (.claim op) | .control (.call op) => op.carries
  | .control (.unlock (.flush waiter) none) | .writer (.register waiter) => some (waiter, true)
  | _ => none

/-- Whether the operation is about to hand over the buffer of a pointer. -/
def GatedOp.owes (pointer : Nat) (op : GatedOp) : Nat :=
  match op with
  | .write data _ => if data.pointer = pointer then 1 else 0
  | _ => 0

/-- A write at an address that is in the map and has not been handed over. -/
def Thread.owes (pointer : Nat) : Thread → Nat
  | .control (.lock op) | .control (.raw op) | .control (.started op) | .control (.done op)
  | .control (.claim op) | .control (.call op) => op.owes pointer
  | _ => 0

/-- The adapter brings the sender of a flush to the queue, and keeps its receiver. -/
def Thread.brings : Thread → Option Waiter
  | .stream (.control _ waiter) | .stream (.notifyControl _ waiter) => some waiter
  | _ => none

/-- `poll_shutdown` has enqueued the end of the stream, and its flush comes next. -/
def Thread.starting : Thread → Bool
  | .stream (.notify (.shutdown _)) | .stream (.control .shutdown _)
  | .stream (.notifyControl .shutdown _) => true
  | _ => false

/-- The adapter is about to look at the receiver. -/
def Thread.receives : Thread → Option PollOp
  | .stream (.receive op) => some op
  | _ => none

/-- A thread takes a step further that a flush does not see. -/
structure Passes (t : Thread) (ts : List Thread) : Prop where
  /-- A flush that it carries. -/
  carries : ∀ u ∈ ts, ∀ x, u.carries = some x → t.carries = some x
  /-- A buffer that it is about to hand over. -/
  owes : ∀ p, (ts.map (Thread.owes p)).sum ≤ t.owes p
  /-- A completion that it has to count. -/
  completes : ∀ p, (ts.map (Thread.completes p)).sum ≤ t.completes p
  /-- It brings no receiver. -/
  brings : ∀ u ∈ ts, u.brings = none
  /-- It begins no shutdown. -/
  starting : ∀ u ∈ ts, u.starting = false
  /-- It waits for no answer. -/
  receives : ∀ u ∈ ts, u.receives = none

/-! ## The list -/

/-- What a step of a thread does to the flushes. -/
inductive FlowStep (cfg : Settings) (s : Flow) (t : Thread) (ts : List Thread) : Flow → Prop
  | quiet : Passes t ts → t.starting = false → FlowStep cfg s t ts s
  -- the write loop
  | popData {epoch : Nat} {data : Buffer} {eos : Bool} {queue : List WriteCommand} :
      t = .writer (.pop epoch) → s.state.queue = .data data eos :: queue →
      ts = [.writer (.push data eos)] → FlowStep cfg s t ts { s with state.queue := queue }
  | popFlush {epoch : Nat} {waiter : Waiter} {queue : List WriteCommand} :
      t = .writer (.pop epoch) → s.state.terminal = none →
      s.state.queue = .flush waiter :: queue → ts = [.control (.lock (.flush waiter))] →
      FlowStep cfg s t ts { s with state.queue := queue }
  | push {data : Buffer} {eos : Bool} :
      t = .writer (.push data eos) → ts = [.control (.lock (.write data eos))] →
      FlowStep cfg s t ts { s with
        state.inFlight := s.state.inFlight ++ [{ data := data, endOfStream := eos }],
        state.inFlightCount := s.state.inFlightCount + 1 }
  | write {data : Buffer} {eos : Bool} {e : Option Error} :
      t = .control (.call (.write data eos)) → ts = [.control (.unlock (.write data eos) e)] →
      FlowStep cfg s t ts { s with trace := s.trace ++ [.write data eos] }
  | flush {waiter : Waiter} :
      t = .control (.call (.flush waiter)) → ts = [.control (.unlock (.flush waiter) none)] →
      FlowStep cfg s t ts { s with trace := s.trace ++ [.flush] }
  | register {waiter : Waiter} :
      t = .writer (.register waiter) → s.state.inFlightCount ≠ 0 → ts = [.writer .top] →
      FlowStep cfg s t ts { s with
        state.flushBlocked := true,
        state.flushWaiters := s.state.flushWaiters ++ [waiter] }
  | answers {waiter : Waiter} :
      t = .writer (.register waiter) → s.state.inFlightCount = 0 → ts = [.writer .top] →
      FlowStep cfg s t ts { s with trace := s.trace ++ [.answered waiter (.ok ())] }
  | refuses {waiter : Waiter} {e : Error} :
      t = .writer (.refuse waiter e) → ts = [.finish (.drain .writer (.error e))] →
      FlowStep cfg s t ts { s with trace := s.trace ++ [.answered waiter (.error e)] }
  -- completions
  | calls {pointer : Nat} :
      t = .outside .cronet →
      ts = [.outside .cronet, .callback (.entered (.writeCompleted pointer))] →
      FlowStep cfg s t ts { s with
        trace := s.trace ++ [.callbackBegun (.writeCompleted pointer)] }
  | completes {pointer : Nat} :
      t = .callback (.complete pointer) → ts = [.callback .wake] →
      FlowStep cfg s t ts { s with state := s.state.remove pointer }
  | unblocks {pointer : Nat} :
      t = .callback (.complete pointer) → (s.state.remove pointer).inFlightCount = 0 →
      ts = [.callback .wake] →
      FlowStep cfg s t ts { s with
        state := { s.state.remove pointer with flushBlocked := false, flushWaiters := [] },
        trace := s.trace ++ s.state.flushWaiters.map fun waiter => .answered waiter (.ok ()) }
  | drain {who : Finisher} {result : Result Unit} :
      t = .finish (.drain who result) → ts = [.finish (.wake who result)] →
      FlowStep cfg s t ts { s with
        state := { s.state with terminal := some result, flushWaiters := [], queue := [] },
        trace := s.trace ++ (s.state.flushWaiters ++ s.state.queuedFlushes).map
          fun waiter => .answered waiter result }
  -- the adapter
  | opens : t = .openStream .ready →
      ts = [.openStream (.returned (.ok ())), .stream .idle, .task .releaseArc] →
      FlowStep cfg s t ts { s with started := cfg.endOfStream, closed := cfg.endOfStream }
  | accepts {op : Producing} {waker : Waker} :
      t = .stream (.enqueue op waker) → s.state.localClosed = false →
      ts = [.stream (.notify op)] →
      FlowStep cfg s t ts { s with
        state.queue := s.state.queue ++ [.data op.data op.endOfStream],
        state.localClosed := op.endOfStream,
        trace := s.trace ++ [.accepted op.data op.endOfStream] }
  | waits {op : PollOp} : t = .stream .idle → ts = [.stream (.receive op)] →
      op = .flush ∧ s.receiver.isSome = true ∨ op = .shutdown ∧ s.started = true →
      FlowStep cfg s t ts s
  | begins : t = .stream .idle → s.receiver = none →
      ts = [.stream (.control .flush s.next)] → FlowStep cfg s t ts { s with next := s.next + 1 }
  | starts {data : Buffer} : t = .stream (.notify (.shutdown data)) →
      ts = [.stream (.control .shutdown s.next)] →
      FlowStep cfg s t ts { s with started := true, next := s.next + 1 }
  | enqueues {op : PollOp} {waiter : Waiter} :
      t = .stream (.control op waiter) → ts = [.stream (.notifyControl op waiter)] →
      FlowStep cfg s t ts { s with state.queue := s.state.queue ++ [.flush waiter] }
  | stores {op : PollOp} {waiter : Waiter} :
      t = .stream (.notifyControl op waiter) → ts = [.stream (.receive op)] →
      FlowStep cfg s t ts { s with receiver := some waiter }
  | receives {op : PollOp} {waiter : Waiter} :
      t = .stream (.receive op) → s.receiver = some waiter →
      .answered waiter (.ok ()) ∈ s.trace → ts = [.stream .idle] →
      FlowStep cfg s t ts { s with
        receiver := none,
        closed := s.closed || op == .shutdown,
        trace := s.trace ++ [.polled op (.ready 0)] }
  | ends {op : PollOp} : t = .stream (.receive op) → s.receiver = none → ts = [.stream .idle] →
      FlowStep cfg s t ts { s with
        closed := s.closed || op == .shutdown,
        trace := s.trace ++ [.polled op (.ready 0)] }
  | polls {p : Stream} {op : PollOp} {count : Nat} :
      t = .stream p → t.starting = false → ts = [.stream .idle] →
      op = .write ∨ op = .shutdown ∧ s.closed = true →
      FlowStep cfg s t ts { s with trace := s.trace ++ [.polled op (.ready count)] }
  | fails {p : Stream} {op : PollOp} {e : Error} {receiver : Option Waiter} :
      t = .stream p → ts = [.stream .idle] → receiver = s.receiver ∨ receiver = none →
      FlowStep cfg s t ts { s with
        receiver := receiver, trace := s.trace ++ [.polled op (.failed e)] }

/-! ## Every step is on the list -/

/-- A thread that is nothing to a flush. -/
structure Thread.Apart (t : Thread) : Prop where
  /-- It carries no flush. -/
  carries : t.carries = none
  /-- It owes no buffer. -/
  owes : ∀ p, t.owes p = 0
  /-- It counts no completion. -/
  completes : ∀ p, t.completes p = 0
  /-- It brings no receiver. -/
  brings : t.brings = none
  /-- It begins no shutdown. -/
  starting : t.starting = false
  /-- It waits for no answer. -/
  receives : t.receives = none

/-- A thread takes one step further and brings threads to life that are nothing to a
flush. -/
theorem Passes.spawns {us : List Thread} (carries : ∀ x, u.carries = some x → t.carries = some x)
    (owes : ∀ p, u.owes p ≤ t.owes p) (completes : ∀ p, u.completes p ≤ t.completes p)
    (brings : u.brings = none) (starting : u.starting = false) (receives : u.receives = none)
    (apart : ∀ v ∈ us, v.Apart) : Passes t (u :: us) := by
  have hsum : ∀ (w : Thread → Nat), (∀ {v : Thread}, v.Apart → w v = 0) →
      ((u :: us).map w).sum = w u := by
    intro w hw
    rw [List.map_cons, List.sum_cons, List.sum_eq_zero, Nat.add_zero]
    intro n hn
    obtain ⟨v, hv, rfl⟩ := List.mem_map.mp hn
    exact hw (apart v hv)
  refine ⟨?_, ?_, ?_, ?_, ?_, ?_⟩
  · refine List.forall_mem_cons.mpr ⟨carries, ?_⟩
    intro v hv x hx
    rw [(apart v hv).carries] at hx
    cases hx
  · intro p
    rw [hsum _ (fun h => h.owes p)]
    exact owes p
  · intro p
    rw [hsum _ (fun h => h.completes p)]
    exact completes p
  · exact List.forall_mem_cons.mpr ⟨brings, fun v hv => (apart v hv).brings⟩
  · exact List.forall_mem_cons.mpr ⟨starting, fun v hv => (apart v hv).starting⟩
  · exact List.forall_mem_cons.mpr ⟨receives, fun v hv => (apart v hv).receives⟩

theorem Passes.one (carries : u.carries = t.carries) (owes : ∀ p, u.owes p = t.owes p)
    (completes : ∀ p, u.completes p = t.completes p) (brings : u.brings = none)
    (starting : u.starting = false) (receives : u.receives = none) : Passes t [u] :=
  .spawns (fun _ hx => carries ▸ hx) (fun p => (owes p).le) (fun p => (completes p).le) brings
    starting receives (List.forall_mem_nil _)

/-- It takes one step further and drops what it had. -/
theorem Passes.apart (apart : ∀ v ∈ ts, v.Apart) : Passes t ts := by
  cases ts with
  | nil =>
    exact ⟨List.forall_mem_nil _, fun _ => Nat.zero_le _, fun _ => Nat.zero_le _,
      List.forall_mem_nil _, List.forall_mem_nil _, List.forall_mem_nil _⟩
  | cons v ts =>
    obtain ⟨hv, hts⟩ := List.forall_mem_cons.mp apart
    refine .spawns ?_ ?_ ?_ hv.brings hv.starting hv.receives hts
    · intro x hx
      rw [hv.carries] at hx
      cases hx
    · intro p
      rw [hv.owes p]
      exact Nat.zero_le _
    · intro p
      rw [hv.completes p]
      exact Nat.zero_le _

theorem apart_one (h : u.Apart) : ∀ v ∈ [u], v.Apart := List.forall_mem_singleton.mpr h

theorem apart_two {w : Thread} (h : u.Apart) (h' : w.Apart) : ∀ v ∈ [u, w], v.Apart :=
  List.forall_mem_cons.mpr ⟨h, apart_one h'⟩

theorem flow_trace {e : Event} (hs : { s with trace := [] }.flow = { s' with trace := [] }.flow)
    (ht : s'.trace = s.trace ++ [e]) (he : e.flows = false) : s'.flow = s.flow := by
  have hf : s'.trace.filter Event.flows = s.trace.filter Event.flows := by
    rw [ht, List.filter_append, List.filter_singleton, he]
    exact List.append_nil _
  simp only [Shared.flow, Flow.mk.injEq] at hs ⊢
  exact ⟨hs.1.symm, hs.2.1.symm, hs.2.2.1.symm, hs.2.2.2.1.symm, hs.2.2.2.2.1.symm, hf⟩

theorem FlowStep.of_flow {x : Flow} (hs : s'.flow = x) (h : FlowStep cfg s.flow t ts x) :
    FlowStep cfg s.flow t ts s'.flow := by
  rw [hs]
  exact h

theorem FlowStep.silent (hs : s'.flow = s.flow) (h : Passes t ts) (ht : t.starting = false) :
    FlowStep cfg s.flow t ts s'.flow := .of_flow hs (.quiet h ht)

/-- A step that adds events that a flush sees. -/
theorem flow_extend {state : Shared} {x : Flow} {tr : List Event}
    (ht : state.trace = s.trace ++ tr) (hs : state.write.state = x.state)
    (hr : state.adapter.flushReceiver = x.receiver) (hn : state.adapter.nextWaiter = x.next)
    (hd : state.adapter.shutdownStarted = x.started) (hc : state.adapter.localClosed = x.closed)
    (hx : s.trace.filter Event.flows ++ tr.filter Event.flows = x.trace) : state.flow = x := by
  rw [Shared.flow, ht, List.filter_append, hs, hr, hn, hd, hc, hx]

theorem filter_answers {waiters : List Waiter} {result : Result Unit} :
    (waiters.map fun waiter => Event.answered waiter result).filter Event.flows =
      waiters.map fun waiter => .answered waiter result := by
  refine List.filter_eq_self.mpr ?_
  intro e he
  obtain ⟨w, -, rfl⟩ := List.mem_map.mp he
  rfl

theorem open_flow {p : Open} (h : openStep cfg s p ch = some (s', ts)) :
    FlowStep cfg s.flow (.openStream p) ts s'.flow := by
  revert h
  fun_cases openStep cfg s p ch <;> first | exact of_none | apply of_some
  all_goals first
    | exact .of_flow rfl (.opens rfl rfl)
    | refine .silent ?_ ?_ rfl
  all_goals first
    | rfl
    | exact flow_trace rfl rfl rfl
    | exact .apart (apart_one ⟨rfl, fun _ => rfl, fun _ => rfl, rfl, rfl, rfl⟩)
    | exact .apart (apart_two ⟨rfl, fun _ => rfl, fun _ => rfl, rfl, rfl, rfl⟩
        ⟨rfl, fun _ => rfl, fun _ => rfl, rfl, rfl, rfl⟩)
    | exact .apart (List.forall_mem_cons.mpr ⟨⟨rfl, fun _ => rfl, fun _ => rfl, rfl, rfl, rfl⟩,
        apart_two ⟨rfl, fun _ => rfl, fun _ => rfl, rfl, rfl, rfl⟩
          ⟨rfl, fun _ => rfl, fun _ => rfl, rfl, rfl, rfl⟩⟩)

theorem shutdown_flow {p : Request.Shutdown} (h : shutdownStep s p ch = some (s', ts)) :
    FlowStep cfg s.flow (.shutdown p) ts s'.flow := by
  revert h
  fun_cases shutdownStep s p ch <;> first | exact of_none | apply of_some
  all_goals
    exact .silent rfl (.apart (apart_one ⟨rfl, fun _ => rfl, fun _ => rfl, rfl, rfl, rfl⟩)) rfl

theorem terminal_flow {p : Terminal} (h : terminalStep s p ch = some (s', ts)) :
    FlowStep cfg s.flow (.terminal p) ts s'.flow := by
  revert h
  fun_cases terminalStep s p ch <;> first | exact of_none | apply of_some
  all_goals refine .silent ?_ ?_ rfl
  all_goals first
    | rfl
    | exact flow_trace rfl rfl rfl
    | exact .apart (apart_one ⟨rfl, fun _ => rfl, fun _ => rfl, rfl, rfl, rfl⟩)
    | exact .apart (apart_two ⟨rfl, fun _ => rfl, fun _ => rfl, rfl, rfl, rfl⟩
        ⟨rfl, fun _ => rfl, fun _ => rfl, rfl, rfl, rfl⟩)

theorem flow_releaseArc : s.releaseArc.flow = s.flow := by
  unfold Shared.releaseArc
  split_ifs <;> rfl

theorem flow_wake : s.wake.flow = s.flow := by
  unfold Shared.wake
  split <;> rfl

theorem task_flow {p : Task} (h : taskStep cfg s p ch = some (s', ts)) :
    FlowStep cfg s.flow (.task p) ts s'.flow := by
  revert h
  fun_cases taskStep cfg s p ch <;> first | exact of_none | apply of_some
  all_goals refine .silent ?_ ?_ rfl
  all_goals first
    | rfl
    | exact flow_trace rfl rfl rfl
    | exact flow_releaseArc
    | exact .apart (List.forall_mem_nil _)
    | exact .apart (apart_one ⟨rfl, fun _ => rfl, fun _ => rfl, rfl, rfl, rfl⟩)

theorem cleanup_flow {p : Cleanup} (h : cleanupStep s p ch = some (s', ts)) :
    FlowStep cfg s.flow (.cleanup p) ts s'.flow := by
  revert h
  fun_cases cleanupStep s p ch <;> first | exact of_none | apply of_some
  all_goals refine .silent ?_ ?_ rfl
  all_goals first
    | rfl
    | exact flow_trace rfl rfl rfl
    | exact flow_releaseArc
    | exact .apart (apart_one ⟨rfl, fun _ => rfl, fun _ => rfl, rfl, rfl, rfl⟩)

theorem after_passes {op : GatedOp} {e : Option Error} :
    Passes (.control (.unlock op e)) (op.after e) := by
  cases op with
  | cancel who =>
    refine .apart ?_
    cases who with
    | app | writer => exact List.forall_mem_nil _
    | task sender =>
      cases sender <;> exact apart_one ⟨rfl, fun _ => rfl, fun _ => rfl, rfl, rfl, rfl⟩
    | callback reading =>
      cases reading <;> exact apart_one ⟨rfl, fun _ => rfl, fun _ => rfl, rfl, rfl, rfl⟩
    | _ => exact apart_one ⟨rfl, fun _ => rfl, fun _ => rfl, rfl, rfl, rfl⟩
  | write data eos =>
    refine .apart ?_
    cases e <;> exact apart_one ⟨rfl, fun _ => rfl, fun _ => rfl, rfl, rfl, rfl⟩
  | flush waiter =>
    cases e with
    | none => exact .one rfl (fun _ => rfl) (fun _ => rfl) rfl rfl rfl
    | some e => exact .apart (apart_one ⟨rfl, fun _ => rfl, fun _ => rfl, rfl, rfl, rfl⟩)
  | startRead sender =>
    refine .apart ?_
    cases e <;> cases sender <;> exact apart_one ⟨rfl, fun _ => rfl, fun _ => rfl, rfl, rfl, rfl⟩

/-- A native call that was not made. -/
theorem unlock_passes {op : GatedOp} {e : Option Error}
    (h : ∀ waiter, op = .flush waiter → e.isSome) :
    Passes t [.control (.unlock op e)] := by
  refine .apart (apart_one ⟨?_, ?_, fun _ => rfl, rfl, rfl, rfl⟩)
  · cases op with
    | flush waiter =>
      obtain ⟨e, rfl⟩ := Option.isSome_iff_exists.mp (h waiter rfl)
      rfl
    | _ => cases e <;> rfl
  · intro p
    cases op <;> rfl

theorem refused_flush {op : GatedOp} (waiter : Waiter) (h : op = .flush waiter) :
    op.refused.isSome := by
  rw [h]
  rfl

theorem control_flow {p : Control} (h : controlStep s p ch = some (s', ts)) :
    FlowStep cfg s.flow (.control p) ts s'.flow := by
  revert h
  fun_cases controlStep s p ch <;> first | exact of_none | apply of_some
  all_goals first
    | exact .of_flow (flow_extend rfl rfl rfl rfl rfl rfl rfl) (.write rfl rfl)
    | exact .of_flow (flow_extend rfl rfl rfl rfl rfl rfl rfl) (.flush rfl rfl)
    | refine .silent ?_ ?_ rfl
  all_goals first
    | rfl
    | exact flow_trace rfl rfl rfl
    | exact after_passes
    | exact .one rfl (fun _ => rfl) (fun _ => rfl) rfl rfl rfl
    | exact unlock_passes refused_flush

theorem body_passes {c : Callback} : Passes (.callback (.entered c)) [c.body] := by
  cases c <;> exact .one rfl (fun _ => rfl) (fun _ => rfl) rfl rfl rfl

theorem callback_flow {p : InCallback} (h : callbackStep cfg s p ch = some (s', ts)) :
    FlowStep cfg s.flow (.callback p) ts s'.flow := by
  revert h
  fun_cases callbackStep cfg s p ch <;> first | exact of_none | apply of_some
  case case16 pointer w hw =>
    refine .of_flow ?_ (.unblocks rfl hw.1 rfl)
    refine flow_extend rfl rfl rfl rfl rfl rfl ?_
    rw [filter_answers, remove_flushWaiters]
    rfl
  case case17 pointer w hw => exact .completes rfl rfl
  all_goals refine .silent ?_ ?_ rfl
  all_goals first
    | rfl
    | exact flow_wake
    | exact flow_trace rfl rfl rfl
    | exact body_passes
    | exact .apart (apart_one ⟨rfl, fun _ => rfl, fun _ => rfl, rfl, rfl, rfl⟩)
    | exact .apart (apart_two ⟨rfl, fun _ => rfl, fun _ => rfl, rfl, rfl, rfl⟩
        ⟨rfl, fun _ => rfl, fun _ => rfl, rfl, rfl, rfl⟩)

theorem finish_flow {p : Finish} (h : finishStep s p ch = some (s', ts)) :
    FlowStep cfg s.flow (.finish p) ts s'.flow := by
  revert h
  fun_cases finishStep s p ch <;> first | exact of_none | apply of_some
  case case1 who result w answered =>
    refine .of_flow ?_ (.drain rfl rfl)
    refine flow_extend (List.append_assoc _ _ _) rfl rfl rfl rfl rfl ?_
    rw [List.filter_append, filter_answers]
    exact congrArg _ (List.append_nil _)
  case case2 who result =>
    exact .silent flow_wake
      (.apart (apart_one ⟨rfl, fun _ => rfl, fun _ => rfl, rfl, rfl, rfl⟩)) rfl
  case case3 who result =>
    refine .silent rfl (.apart ?_) rfl
    cases who <;> exact apart_one ⟨rfl, fun _ => rfl, fun _ => rfl, rfl, rfl, rfl⟩

theorem writer_flow {p : Writer} (h : writerStep s p ch = some (s', ts)) :
    FlowStep cfg s.flow (.writer p) ts s'.flow := by
  revert h
  fun_cases writerStep s p ch <;> first | exact of_none | apply of_some
  case case6 epoch hr data eos queue hq => exact .popData rfl hq rfl
  case case7 epoch hr waiter queue hq =>
    rw [Bool.or_eq_true, not_or, Bool.not_eq_true, Option.isSome_eq_false_iff,
      Option.isNone_iff_eq_none] at hr
    exact .popFlush rfl hr.1 hq rfl
  case case13 data eos => exact .push rfl rfl
  case case14 waiter hc =>
    exact .of_flow (flow_extend rfl rfl rfl rfl rfl rfl rfl) (.answers rfl hc rfl)
  case case15 waiter hc => exact .register rfl hc rfl
  case case16 waiter e =>
    exact .of_flow (flow_extend rfl rfl rfl rfl rfl rfl rfl) (.refuses rfl rfl)
  all_goals refine .silent ?_ ?_ rfl
  all_goals first
    | rfl
    | exact flow_trace rfl rfl rfl
    | exact .apart (List.forall_mem_nil _)
    | exact .apart (apart_one ⟨rfl, fun _ => rfl, fun _ => rfl, rfl, rfl, rfl⟩)

theorem answered_of_answerTo {waiter : Waiter} {result : Result Unit}
    (h : s.answerTo waiter = some result) : .answered waiter result ∈ s.trace := by
  obtain ⟨e, he, heq⟩ := List.exists_of_findSome?_eq_some h
  cases e with
  | answered w r =>
    change (if w = waiter then some r else none) = some result at heq
    by_cases hw : w = waiter
    · rw [if_pos hw, Option.some.injEq] at heq
      rw [← hw, ← heq]
      exact he
    · rw [if_neg hw] at heq
      cases heq
  | _ => cases heq

theorem stream_flow {p : Stream} (h : streamStep cfg s p ch = some (s', ts)) :
    FlowStep cfg s.flow (.stream p) ts s'.flow := by
  revert h
  fun_cases streamStep cfg s p ch <;> first | exact of_none | apply of_some
  case case18 op waker hclosed hfull hterm =>
    have hc : s.write.state.localClosed = false := Bool.eq_false_iff.mpr hclosed
    refine .of_flow ?_ (.accepts rfl hc rfl)
    refine flow_extend rfl ?_ rfl rfl rfl rfl rfl
    rw [hc, Bool.false_or]
    rfl
  case case27 op hnone =>
    exact .of_flow (flow_extend rfl rfl rfl rfl rfl rfl rfl) (.ends rfl hnone rfl)
  case case28 op waiter hr ha =>
    have hmem : .answered waiter (.ok ()) ∈ s.flow.trace :=
      List.mem_filter.mpr ⟨answered_of_answerTo ha, rfl⟩
    exact .of_flow (flow_extend rfl rfl rfl rfl rfl rfl rfl) (.receives rfl hr hmem rfl)
  all_goals first
    | exact .waits rfl rfl (.inl ⟨rfl, Option.isSome_of_eq_some ‹_›⟩)
    | exact .waits rfl rfl (.inr ⟨rfl, ‹_›⟩)
    | exact .begins rfl ‹_› rfl
    | exact .starts rfl rfl
    | exact .enqueues rfl rfl
    | exact .stores rfl rfl
    | exact .of_flow (flow_extend rfl rfl rfl rfl rfl rfl rfl) (.polls rfl rfl rfl (.inl rfl))
    | exact .of_flow (flow_extend rfl rfl rfl rfl rfl rfl rfl)
        (.polls rfl rfl rfl (.inr ⟨rfl, ‹_›⟩))
    | exact .of_flow (flow_extend rfl rfl rfl rfl rfl rfl rfl) (.fails rfl rfl (.inl rfl))
    | exact .of_flow (flow_extend rfl rfl rfl rfl rfl rfl rfl) (.fails rfl rfl (.inr rfl))
    | refine .silent ?_ ?_ rfl
  all_goals first
    | rfl
    | exact flow_trace rfl rfl rfl
    | exact .apart (List.forall_mem_nil _)
    | exact .apart (apart_one ⟨rfl, fun _ => rfl, fun _ => rfl, rfl, rfl, rfl⟩)

theorem outside_flow {who : Request.Outside} (h : outsideStep s who ch = some (s', ts)) :
    FlowStep cfg s.flow (.outside who) ts s'.flow := by
  revert h
  fun_cases outsideStep s who ch <;> intro h
  case case1 c ha =>
    obtain ⟨n, hn, h⟩ := Option.map_eq_some_iff.mp h
    cases h
    cases c with
    | writeCompleted pointer =>
      exact .of_flow (flow_extend rfl rfl rfl rfl rfl rfl rfl) (.calls rfl rfl)
    | _ =>
      refine .silent (flow_trace rfl rfl rfl) ?_ rfl
      exact .apart (apart_two ⟨rfl, fun _ => rfl, fun _ => rfl, rfl, rfl, rfl⟩
        ⟨rfl, fun _ => rfl, fun _ => rfl, rfl, rfl, rfl⟩)
  all_goals cases h
  all_goals exact .silent rfl (.apart (apart_two ⟨rfl, fun _ => rfl, fun _ => rfl, rfl, rfl, rfl⟩
    ⟨rfl, fun _ => rfl, fun _ => rfl, rfl, rfl, rfl⟩)) rfl

/-- **Every step is on the list.** -/
theorem step_flow (h : step cfg s t ch = some (s', ts)) : FlowStep cfg s.flow t ts s'.flow := by
  cases t <;> simp only [step] at h
  case outside who => exact outside_flow h
  case openStream p => exact open_flow h
  case shutdown p => exact shutdown_flow h
  case control p => exact control_flow h
  case callback p => exact callback_flow h
  case terminal p => exact terminal_flow h
  case finish p => exact finish_flow h
  case task p => exact task_flow h
  case writer p => exact writer_flow h
  case stream p => exact stream_flow h
  case cleanup p => exact cleanup_flow h

end TokioCronet.Bidirectional
