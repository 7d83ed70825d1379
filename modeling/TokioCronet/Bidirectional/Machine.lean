import Mathlib.Tactic.SplitIfs
import TokioCronet.Lib.Pool
import TokioCronet.Bidirectional.State

/-!
# The program of a bidirectional stream

One step function for each group of functions in `bidirectional.rs`, and `step`, which
hands a thread to its group. A step is one atomic access, one lock section or one
native call. A step that has to wait for a lock, a permit or a wake-up is not
enabled.

The native side is a thread like the others. It makes no callback for a stream whose
start was not called or has failed, and it completes a write only while it holds a
buffer from that address; it may make any callback at any time otherwise.
-/

namespace TokioCronet.Bidirectional

open Request (Outside)

variable (cfg : Settings)

/-! ## Updates of the state -/

/-- `if pending.is_none() { *pending = Some(error) }`. -/
def Shared.record (s : Shared) (e : Error) : Shared :=
  { s with context.pendingError := s.context.pendingError.or (some e),
           trace := s.trace ++ [.recorded e] }

/-- Drop one `Arc<BidirectionalContext>`; the last one takes the context's own
`read_sender` with it. -/
def Shared.releaseArc (s : Shared) : Shared :=
  if s.context.life = .live then
    if s.context.arcs = 1 then
      { s with context.arcs := 0, context.life := .gone, channel.senders := s.channel.senders - 1 }
    else { s with context.arcs := s.context.arcs - 1 }
  else s

/-- `oneshot::Sender::send` of a flush. -/
def Shared.answer (s : Shared) (waiter : Waiter) (result : Result Unit) : Shared :=
  { s with trace := s.trace ++ [.answered waiter result] }

/-- The answers to all flush senders of a list. -/
def Shared.answerAll (s : Shared) (waiters : List Waiter) (result : Result Unit) : Shared :=
  { s with trace := s.trace ++ waiters.map fun waiter => .answered waiter result }

/-- `wake_producer`. -/
def Shared.wake (s : Shared) : Shared :=
  match s.write.producerWaker with
  | some waker =>
    { s with write.producerWaker := none,
             producer.woken := s.producer.woken || waker == s.producer.waker }
  | none => s

/-- `queue_data_count` -/
def WriteState.queueDataCount (w : WriteState) : Nat :=
  w.queue.countP fun command =>
    match command with
    | .data _ _ => true
    | .flush _ => false

/-- `state.queue_data_count() + state.in_flight_count >= self.capacity` -/
def WriteState.full (w : WriteState) : Bool :=
  cfg.writeCapacity ≤ w.queueDataCount + w.inFlightCount

/-- The flush senders in the command queue. -/
def WriteState.queuedFlushes (w : WriteState) : List Waiter :=
  w.queue.filterMap fun command =>
    match command with
    | .data _ _ => none
    | .flush waiter => some waiter

/-- `complete` takes the oldest write at the address out of the map. -/
def WriteState.remove (w : WriteState) (pointer : Nat) : WriteState :=
  match w.inFlight.find? (·.data.pointer == pointer) with
  | some write =>
    { w with inFlight := w.inFlight.eraseP (·.data.pointer == pointer),
             inFlightCount := w.inFlightCount - 1,
             localClosed := w.localClosed || write.endOfStream }
  | none => w

/-! ## `open` and `EngineInner::shutdown` -/

/-- `open_bidirectional` -/
def openStep (s : Shared) : Open → Choice → Option (Shared × List Thread)
  -- `begin_operation`
  | .load, .go =>
    if s.engine.closing then some (s, [.openStream (.returned (.error .engineShutdown))])
    else some (s, [.openStream .admission])
  | .admission, .go =>
    if s.engine.closing then some (s, [.openStream (.returned (.error .engineShutdown))])
    else some (s, [.openStream .streamEngine])
  | .streamEngine, .go => some (s, [.openStream .new])
  | .streamEngine, .outOfMemory =>
    some (s, [.openStream (.returned (.error (.allocationFailed "bidirectional stream engine")))])
  -- `BidirectionalContext` and `NativeBidirectionalStream::new`
  | .new, .go =>
    some ({ s with control.raw := true, native.stream := .live, context.life := .live,
                   context.arcs := 2, channel.senders := 1 }, [.openStream .registerPush])
  | .new, .outOfMemory =>
    some (s, [.openStream (.returned (.error (.allocationFailed "bidirectional stream")))])
  -- `EngineInner::register`
  | .registerPush, .go =>
    if s.engine.controlsLock then none
    else some ({ s with engine.controlsLock := true, engine.registered := true },
      [.openStream .registerLoad])
  | .registerLoad, .go =>
    if s.engine.closing then
      some ({ s with engine.controlsLock := false }, [.control (.store .registering)])
    else some ({ s with engine.controlsLock := false }, [.openStream .configure])
  | .configure, .go =>
    some ({ s with trace := s.trace ++ [.configure] }, [.openStream .start])
  | .start, .go =>
    some ({ s with native.accepting := true, trace := s.trace ++ [.start] },
      [.openStream .startReturn])
  | .startReturn, .result none =>
    some ({ s with trace := s.trace ++ [.started] }, [.openStream .storeStarted])
  | .startReturn, .result (some code) =>
    if s.native.called then none
    else some ({ s with native.accepting := false },
      [.cleanup (.drop (.failed (.bidirectionalApi "start" code)))])
  | .storeStarted, .go => some ({ s with control.started := true }, [.openStream .loadCancel])
  | .loadCancel, .go =>
    if s.control.cancelRequested then
      some ({ s with trace := s.trace ++ [.cancelRead true] }, [.control (.store .started)])
    else some ({ s with trace := s.trace ++ [.cancelRead false] }, [.openStream .spawn])
  -- the cleanup task takes the native stream and an `Arc` of the context
  | .spawn, .go =>
    some ({ s with context.arcs := s.context.arcs + 1 },
      [.writer .top, .cleanup .signal, .openStream .ready])
  | .ready, .go =>
    match s.context.ready with
    | some (.ok ()) =>
      some ({ s with adapter.shutdownStarted := cfg.endOfStream,
                     adapter.localClosed := cfg.endOfStream },
        [.openStream (.returned (.ok ())), .stream .idle, .task .releaseArc])
    | some (.error e) => some (s, [.control (.store (.guard (some e)))])
    | none => none
  -- the future is dropped at its `.await`
  | .ready, .drop => some (s, [.control (.store (.guard none))])
  | .close (some e), .go =>
    some ({ s with channel.receiver := false, channel.queue := [] },
      [.openStream (.returned (.error e)), .task .releaseArc])
  | .close none, .go =>
    some ({ s with channel.receiver := false, channel.queue := [] }, [.task .releaseArc])
  | _, _ => none

/-- The call of `Engine::shutdown`, as far as this stream sees it. -/
def shutdownStep (s : Shared) : Request.Shutdown → Choice → Option (Shared × List Thread)
  | .close, .go => some ({ s with engine.closing := true }, [.shutdown .snapshot])
  | .snapshot, .go =>
    if s.engine.controlsLock then none
    else if s.engine.registered then some (s, [.control (.store .shutdown)])
    else some (s, [.shutdown .done])
  | _, _ => none

/-! ## `BidirectionalControl` and `start_read` -/

/-- What an operation returns when it finds the stream gone or done. -/
def GatedOp.refused : GatedOp → Option Error
  | .write _ _ | .flush _ => some .canceled
  | _ => none

/-- What follows once the gate is released. -/
def GatedOp.after : GatedOp → Option Error → List Thread
  | .cancel .app, _ => []
  | .cancel .shutdown, _ => [.shutdown .done]
  | .cancel .registering, _ => [.cleanup (.drop (.failed .engineShutdown))]
  | .cancel .started, _ => [.openStream .spawn]
  | .cancel .leaking, _ => [.task .releaseArc]
  | .cancel (.guard e), _ => [.openStream (.close e)]
  | .cancel .adapter, _ => [.stream .closed]
  | .cancel .writer, _ => []
  | .cancel (.callback true), _ => [.callback .unlockRead]
  | .cancel (.callback false), _ => [.callback .leave]
  | .cancel (.task true), _ => [.task .releaseSender]
  | .cancel (.task false), _ => [.task .releaseArc]
  | .write _ _, none => [.writer .top]
  | .write _ _, some e => [.finish (.drain .writer (.error e))]
  | .flush waiter, none => [.writer (.register waiter)]
  | .flush waiter, some e => [.writer (.refuse waiter e)]
  | .startRead true, none => [.task .releaseSender]
  | .startRead false, none => [.task .releaseArc]
  | .startRead sender, some e => [.task (.record (.task sender) e)]

/-- `i32::try_from(data.len())` fails. -/
def Buffer.tooLong (data : Buffer) : Bool := 2 ^ 31 ≤ data.bytes.length

/-- The methods of `BidirectionalControl`, and what each of them does under the mutex. -/
def controlStep (s : Shared) : Control → Choice → Option (Shared × List Thread)
  | .store who, .go =>
    some ({ s with control.cancelRequested := true }, [.control (.lock (.cancel who))])
  | .lock op, .go =>
    if s.control.gate then none
    else some ({ s with control.gate := true }, [.control (.raw op)])
  | .raw (.cancel who), .go =>
    if s.control.raw then some (s, [.control (.started (.cancel who))])
    else some (s, [.control (.unlock (.cancel who) none)])
  | .raw op, .go =>
    if s.control.raw then some (s, [.control (.done op)])
    else some (s, [.control (.unlock op op.refused)])
  | .started op, .go =>
    if s.control.started then some (s, [.control (.done op)])
    else some (s, [.control (.unlock op op.refused)])
  | .done (.startRead sender), .go =>
    if s.control.done then some (s, [.control (.unlock (.startRead sender) none)])
    else some (s, [.control (.claim (.startRead sender))])
  | .done (.write data eos), .go =>
    if s.control.done then some (s, [.control (.unlock (.write data eos) (some .canceled))])
    else if data.tooLong then
      some (s, [.control (.unlock (.write data eos)
        (some (.invalidConfiguration "bidirectional write does not fit a native int")))])
    else some (s, [.control (.call (.write data eos))])
  | .done op, .go =>
    if s.control.done then some (s, [.control (.unlock op op.refused)])
    else some (s, [.control (.call op)])
  -- `start_read` locks the read state and keeps it over its native call
  | .claim (.startRead sender), .go =>
    if s.context.read.lock then none
    else if s.context.read.inFlight || s.context.read.eof then
      some (s, [.control (.unlock (.startRead sender) none)])
    else some ({ s with context.read.inFlight := true, context.read.lock := true },
      [.control (.call (.startRead sender))])
  | .call (.cancel who), .go =>
    some ({ s with trace := s.trace ++ [.cancel] }, [.control (.unlock (.cancel who) none)])
  | .call (.write data eos), .result none =>
    some ({ s with native.outstanding := s.native.outstanding ++ [data],
                   trace := s.trace ++ [.write data eos] },
      [.control (.unlock (.write data eos) none)])
  | .call (.write data eos), .result (some code) =>
    some ({ s with trace := s.trace ++ [.write data eos] },
      [.control (.unlock (.write data eos) (some (.bidirectionalApi "write" code)))])
  | .call (.flush waiter), .go =>
    some ({ s with trace := s.trace ++ [.flush] }, [.control (.unlock (.flush waiter) none)])
  | .call (.startRead sender), .result none =>
    some ({ s with context.read.lock := false, trace := s.trace ++ [.read] },
      [.control (.unlock (.startRead sender) none)])
  | .call (.startRead sender), .result (some code) =>
    some ({ s with context.read.inFlight := false, context.read.lock := false,
                   trace := s.trace ++ [.read] },
      [.control (.unlock (.startRead sender) (some (.bidirectionalApi "read" code)))])
  | .unlock op e, .go => some ({ s with control.gate := false }, op.after e)
  | _, _ => none

/-! ## Callbacks -/

/-- What a callback does once it has its lease. -/
def Callback.body : Callback → Thread
  | .streamReady => .callback .ready
  | .responseHeaders headers => .callback (.headers headers)
  | .readCompleted n content => .callback (.readCompleted n content)
  | .writeCompleted pointer => .callback (.complete pointer)
  | .responseTrailers trailers => .callback (.trailers trailers)
  | .succeeded => .terminal (.first none)
  | .failed netError => .terminal (.first (some (.bidirectionalStream netError)))
  | .canceled => .terminal (.first (some .canceled))

/-- The bodies of the callbacks. -/
def callbackStep (s : Shared) : InCallback → Choice → Option (Shared × List Thread)
  -- `bidirectional_context`
  | .entered c, .go =>
    some ({ s with context.callbackCount := s.context.callbackCount + 1,
                   context.arcs := s.context.arcs + 1 }, [c.body])
  -- `on_stream_ready`
  | .ready, .go => some ({ s with write.ready := true }, [.callback .readyNotify])
  | .readyNotify, .go =>
    some ({ s with write.notifyEpoch := s.write.notifyEpoch + 1 }, [.callback .readySend])
  | .readySend, .go =>
    if s.context.readySender then
      some ({ s with context.readySender := false, context.ready := some (.ok ()) },
        [.callback .leave])
    else some (s, [.callback .leave])
  -- `on_response_headers`
  | .headers headers, .go =>
    some ({ s with context.headers := some (.ok headers) }, [.callback .spawnRead])
  | .spawnRead, .go =>
    some ({ s with context.arcs := s.context.arcs + 1 },
      [.control (.lock (.startRead false)), .callback .leave])
  -- `on_read_completed`
  | .readCompleted n content, .go =>
    if s.context.read.lock then none
    else if n < 0 then
      some ({ s with context.read.inFlight := false },
        [.task (.record (.callback false) (.bidirectionalApi "read callback" n))])
    else if cfg.readBufferSize < n.toNat ∨ (n ≠ 0 ∧ content = none) then
      some ({ s with context.read.inFlight := false }, [.callback (.measure n)])
    else if n = 0 then
      some ({ s with context.read.inFlight := false, context.read.eof := true,
                     channel.senders := s.channel.senders + 1 },
        [.task (.sendLast .eof), .callback .leave])
    else
      some ({ s with context.read.inFlight := false, context.arcs := s.context.arcs + 1,
                     channel.senders := s.channel.senders + 1 },
        [.task (.send (.chunk ((content.getD []).take n.toNat))), .callback .leave])
  -- the guard in the argument of `fail_then_cancel` lives to the end of the statement
  | .measure n, .go =>
    if s.context.read.lock then none
    else some ({ s with context.read.lock := true },
      [.task (.record (.callback true) (.invalidReadSize n.toNat cfg.readBufferSize))])
  | .unlockRead, .go =>
    some ({ s with context.read.lock := false }, [.callback .leave])
  -- `WriteShared::complete`
  | .complete pointer, .go =>
    let w := s.write.state.remove pointer
    if w.inFlightCount = 0 ∧ w.flushBlocked then
      some ({ s.answerAll w.flushWaiters (.ok ()) with
                write.state := { w with flushBlocked := false, flushWaiters := [] },
                write.permit := true }, [.callback .wake])
    else some ({ s with write.state := w }, [.callback .wake])
  | .wake, .go => some (s.wake, [.callback .leave])
  -- `on_response_trailers`
  | .trailers trailers, .go =>
    some ({ s with context.trailers := some (.ok trailers) }, [.callback .leave])
  -- `Drop for BidirectionalCallbackLease`
  | .leave, .go =>
    if s.context.callbackCount = 1 then
      some ({ s with context.callbackCount := 0 }, [.callback .notify])
    else some ({ s with context.callbackCount := s.context.callbackCount - 1 },
      [.task .releaseArc])
  | .notify, .go =>
    some ({ s with context.idleEpoch := s.context.idleEpoch + 1 }, [.task .releaseArc])
  | _, _ => none

/-- `error.clone().map_or(Ok(()), Err)`. -/
def Terminal.result : Option Error → Result Unit
  | some e => .error e
  | none => .ok ()

/-- `BidirectionalContext::terminal` -/
def terminalStep (s : Shared) : Terminal → Choice → Option (Shared × List Thread)
  | .first fallback, .go =>
    if s.control.done then some (s, [.callback .leave])
    else some ({ s with control.done := true, trace := s.trace ++ [.done] },
      [.terminal (.take fallback)])
  | .take fallback, .go =>
    some ({ s with context.pendingError := none },
      [.terminal (.ready (Terminal.result (s.context.pendingError.or fallback)))])
  | .ready result, .go =>
    if s.context.readySender then
      some ({ s with context.readySender := false, context.ready := some result },
        [.terminal (.headers result)])
    else some (s, [.terminal (.headers result)])
  | .headers result, .go =>
    if s.context.headers.isNone then some (s, [.terminal (.setHeaders result)])
    else some (s, [.terminal (.trailers result)])
  | .setHeaders result, .go =>
    let headers := result.map fun _ => { headers := [], negotiatedProtocol := "" }
    some ({ s with context.headers := some headers }, [.terminal (.trailers result)])
  | .trailers result, .go =>
    if s.context.trailers.isNone then some (s, [.terminal (.setTrailers result)])
    else some (s, [.terminal (.watch result)])
  | .setTrailers result, .go =>
    some ({ s with context.trailers := some (result.map fun _ => []) },
      [.terminal (.watch result)])
  | .watch result, .go =>
    some ({ s with context.terminal := some result }, [.finish (.drain .terminal result)])
  | .spawn result, .go =>
    some ({ s with channel.senders := s.channel.senders + 1 },
      [.task (.sendLast (match result with
        | .ok () => .eof
        | .error e => .error e)), .terminal .signal])
  | .signal, .go =>
    if s.context.cleanupSender then
      some ({ s with context.cleanupSender := false, context.cleanupSignal := true },
        [.callback .leave])
    else some (s, [.callback .leave])
  | _, _ => none

/-- Where `finish` returns to. -/
def Finisher.after : Finisher → Result Unit → Thread
  | .terminal, result => .terminal (.spawn result)
  | .writer, _ => .control (.store .writer)

/-- `WriteShared::finish` -/
def finishStep (s : Shared) : Finish → Choice → Option (Shared × List Thread)
  | .drain who result, .go =>
    let w := s.write.state
    let answered := s.answerAll (w.flushWaiters ++ w.queuedFlushes) result
    some ({ answered with
              write.state := { w with terminal := some result, flushWaiters := [], queue := [] },
              trace := answered.trace ++ [.finished result] }, [.finish (.wake who result)])
  | .wake who result, .go => some (s.wake, [.finish (.notify who result)])
  | .notify who result, .go =>
    some ({ s with write.notifyEpoch := s.write.notifyEpoch + 1 }, [who.after result])
  | _, _ => none

/-! ## Spawned tasks -/

/-- The tasks that a callback spawns. -/
def taskStep (s : Shared) : Task → Choice → Option (Shared × List Thread)
  | .send event, .go =>
    if s.channel.receiver then
      if s.channel.queue.length < cfg.readChannelCapacity then
        some ({ s with channel.queue := s.channel.queue ++ [event] },
          [.control (.lock (.startRead true))])
      else none
    else some (s, [.task (.record (.task true) .canceled)])
  | .sendLast event, .go =>
    if s.channel.receiver then
      if s.channel.queue.length < cfg.readChannelCapacity then
        some ({ s with channel.queue := s.channel.queue ++ [event],
                       channel.senders := s.channel.senders - 1 }, [])
      else none
    else some ({ s with channel.senders := s.channel.senders - 1 }, [])
  -- `fail_then_cancel`
  | .record (.callback reading) e, .go =>
    some (s.record e, [.control (.store (.callback reading))])
  | .record (.task sender) e, .go => some (s.record e, [.control (.store (.task sender))])
  | .releaseSender, .go =>
    some ({ s with channel.senders := s.channel.senders - 1 }, [.task .releaseArc])
  | .releaseArc, .go => some (s.releaseArc, [])
  | _, _ => none

/-- `write_loop` -/
def writerStep (s : Shared) : Writer → Choice → Option (Shared × List Thread)
  | .top, .go => some (s, [.writer (.ready s.write.notifyEpoch)])
  | .ready epoch, .go =>
    if s.write.ready then some (s, [.writer (.pop epoch)]) else some (s, [.writer (.park epoch)])
  | .pop epoch, .go =>
    if s.write.state.terminal.isSome || s.write.state.flushBlocked then
      some (s, [.writer (.check epoch)])
    else
      match s.write.state.queue with
      | [] => some (s, [.writer (.check epoch)])
      | .data data eos :: queue =>
        some ({ s with write.state.queue := queue }, [.writer (.push data eos)])
      | .flush waiter :: queue =>
        some ({ s with write.state.queue := queue }, [.control (.lock (.flush waiter))])
  | .check epoch, .go =>
    if s.write.state.terminal.isSome then some (s, []) else some (s, [.writer (.park epoch)])
  -- `notified.await`
  | .park epoch, .go =>
    if s.write.notifyEpoch = epoch then
      if s.write.permit then some ({ s with write.permit := false }, [.writer .top]) else none
    else some (s, [.writer .top])
  | .push data eos, .go =>
    some ({ s with
      write.state.inFlight := s.write.state.inFlight ++ [{ data := data, endOfStream := eos }],
      write.state.inFlightCount := s.write.state.inFlightCount + 1 },
      [.control (.lock (.write data eos))])
  | .register waiter, .go =>
    if s.write.state.inFlightCount = 0 then some (s.answer waiter (.ok ()), [.writer .top])
    else
      some ({ s with write.state.flushBlocked := true,
                     write.state.flushWaiters := s.write.state.flushWaiters ++ [waiter] },
        [.writer .top])
  | .refuse waiter e, .go =>
    some (s.answer waiter (.error e), [.finish (.drain .writer (.error e))])
  | _, _ => none

/-! ## The adapter -/

/-- What `poll_write` and `poll_shutdown` pass to `enqueue_data`. -/
def Producing.data : Producing → Buffer
  | .write data | .shutdown data => data

/-- The command of `poll_shutdown` ends the stream. -/
def Producing.endOfStream : Producing → Bool
  | .write _ => false
  | .shutdown _ => true

/-- The poll that enqueues the command. -/
def Producing.poll : Producing → PollOp
  | .write _ => .write
  | .shutdown _ => .shutdown

/-- A poll returns. -/
def Shared.polled (s : Shared) (op : PollOp) (result : PollResult) :
    Option (Shared × List Thread) :=
  some ({ s with trace := s.trace ++ [.polled op result] }, [.stream .idle])

/-- What the sender of a flush has sent. -/
def Shared.answerTo (s : Shared) (waiter : Waiter) : Option (Result Unit) :=
  s.trace.findSome? fun event =>
    match event with
    | .answered w result => if w = waiter then some result else none
    | _ => none

/-- The polls of the adapter, and its drop. -/
def streamStep (s : Shared) : Stream → Choice → Option (Shared × List Thread)
  -- `poll_write`
  | .idle, .pollWrite input pointer waker =>
    if s.adapter.localClosed || s.adapter.shutdownStarted then s.polled .write .brokenPipe
    else if input = [] then s.polled .write (.ready 0)
    else some ({ s with producer := { waker := waker } },
      [.stream (.enqueue (.write { pointer := pointer, bytes := input.take (2 ^ 31 - 1) }) waker)])
  -- `poll_flush`
  | .idle, .pollFlush =>
    match s.adapter.flushReceiver with
    | none =>
      some ({ s with adapter.nextWaiter := s.adapter.nextWaiter + 1 },
        [.stream (.control .flush s.adapter.nextWaiter)])
    | some _ => some (s, [.stream (.receive .flush)])
  -- `poll_shutdown`
  | .idle, .pollShutdown pointer waker =>
    if s.adapter.localClosed then s.polled .shutdown (.ready 0)
    else if s.adapter.shutdownStarted then some (s, [.stream (.receive .shutdown)])
    else some ({ s with producer := { waker := waker } },
      [.stream (.enqueue (.shutdown { pointer := pointer, bytes := [] }) waker)])
  -- `next_chunk`
  | .idle, .nextChunk =>
    match s.channel.queue with
    | .chunk bytes :: queue =>
      some ({ s with channel.queue := queue, trace := s.trace ++ [.chunk (some (.ok bytes))] },
        [.stream .idle])
    | .error e :: queue =>
      some ({ s with channel.queue := queue, trace := s.trace ++ [.chunk (some (.error e))] },
        [.stream .idle])
    | .eof :: queue =>
      some ({ s with channel.queue := queue, adapter.readEof := true,
                     trace := s.trace ++ [.chunk none] }, [.stream .idle])
    | [] =>
      if s.channel.senders = 0 then
        some ({ s with adapter.readEof := true, trace := s.trace ++ [.chunk none] },
          [.stream .idle])
      else none
  | .idle, .drop => some (s, [.stream .drop])
  -- the first lock section of `enqueue_data`
  | .enqueue op waker, .go =>
    match s.write.state.terminal with
    | some (.error e) => s.polled op.poll (.failed e)
    | _ =>
      if s.write.state.localClosed then s.polled op.poll (.failed .canceled)
      else if s.write.state.full cfg then some (s, [.stream (.store op waker)])
      else
        some ({ s with
          write.state.queue := s.write.state.queue ++ [.data op.data op.endOfStream],
          write.state.localClosed := s.write.state.localClosed || op.endOfStream,
          trace := s.trace ++ [.accepted op.data op.endOfStream] }, [.stream (.notify op)])
  | .store op waker, .go =>
    some ({ s with write.producerWaker := some waker }, [.stream (.recheck op waker)])
  -- the second lock section; `Ok(false)`, or once more from the start
  | .recheck op waker, .go =>
    if s.write.state.full cfg then
      some ({ s with producer.parked := true, trace := s.trace ++ [.polled op.poll .pending] },
        [.stream .idle])
    else some (s, [.stream (.enqueue op waker)])
  -- `notify_one` after `Ok(true)`
  | .notify (.write data), .go =>
    some ({ s with write.permit := true,
                   trace := s.trace ++ [.polled .write (.ready data.bytes.length)] },
      [.stream .idle])
  | .notify (.shutdown _), .go =>
    some ({ s with write.permit := true, adapter.shutdownStarted := true,
                   adapter.nextWaiter := s.adapter.nextWaiter + 1 },
      [.stream (.control .shutdown s.adapter.nextWaiter)])
  -- `enqueue_control`
  | .control op waiter, .go =>
    match s.write.state.terminal with
    | some (.error e) => s.polled op (.failed e)
    | _ => some ({ s with write.state.queue := s.write.state.queue ++ [.flush waiter] },
        [.stream (.notifyControl op waiter)])
  | .notifyControl op waiter, .go =>
    some ({ s with write.permit := true, adapter.flushReceiver := some waiter },
      [.stream (.receive op)])
  -- `poll_flush_receiver`
  | .receive op, .go =>
    match s.adapter.flushReceiver with
    | none =>
      { s with adapter.localClosed := s.adapter.localClosed || op == PollOp.shutdown }.polled op
        (.ready 0)
    | some waiter =>
      match s.answerTo waiter with
      | some (.ok ()) =>
        { s with adapter.flushReceiver := none,
                 adapter.localClosed := s.adapter.localClosed || op == PollOp.shutdown }.polled
          op (.ready 0)
      | some (.error e) => { s with adapter.flushReceiver := none }.polled op (.failed e)
      | none => s.polled op .pending
  -- `Drop for BidirectionalStream`
  | .drop, .go =>
    if s.control.done then some (s, [.stream .closed])
    else some (s, [.control (.store .adapter)])
  | .closed, .go => some ({ s with channel.receiver := false, channel.queue := [] }, [])
  | _, _ => none

/-! ## The cleanup task and `Drop for NativeBidirectionalStream` -/

/-- The cleanup task, and the drop of the native stream. -/
def cleanupStep (s : Shared) : Cleanup → Choice → Option (Shared × List Thread)
  | .signal, .go => if s.context.cleanupSignal then some (s, [.cleanup .count]) else none
  -- `wait_for_callbacks`
  | .count, .go =>
    if s.context.callbackCount = 0 then some (s, [.cleanup (.drop .cleanup)])
    else some (s, [.cleanup .arm])
  | .arm, .go => some (s, [.cleanup (.recheck s.context.idleEpoch)])
  | .recheck epoch, .go =>
    if s.context.callbackCount = 0 then some (s, [.cleanup .count])
    else some (s, [.cleanup (.park epoch)])
  | .park epoch, .go =>
    if s.context.idleEpoch = epoch then none else some (s, [.cleanup .count])
  -- a started stream that is not done is cancelled and leaked
  | .drop .cleanup, .go =>
    if s.control.done then some (s, [.cleanup (.gate .cleanup)])
    else some (s, [.control (.store .leaking)])
  | .drop (.failed e), .go => some (s, [.cleanup (.gate (.failed e))])
  -- `BidirectionalControl::destroy`
  | .gate why, .go =>
    if s.control.gate then none
    else some ({ s with control.gate := true }, [.cleanup (.raw why)])
  | .raw why, .go => some ({ s with control.raw := false }, [.cleanup (.destroy why)])
  | .destroy why, .go =>
    some ({ s with native.stream := .gone, trace := s.trace ++ [.destroy] },
      [.cleanup (.unlock why)])
  | .unlock why, .go => some ({ s with control.gate := false }, [.cleanup (.context why)])
  | .context .cleanup, .go => some (s.releaseArc, [.task .releaseArc])
  | .context (.failed e), .go =>
    some (s.releaseArc, [.openStream (.close (some e))])
  | _, _ => none

/-! ## The program -/

/-- What the native side notes about a callback it makes. A completion gives back the
oldest of its buffers at that address. -/
def Native.call (n : Native) : Callback → Option Native
  | .writeCompleted pointer =>
    if n.outstanding.any (·.pointer == pointer) then
      some { n with called := true, outstanding := n.outstanding.eraseP (·.pointer == pointer) }
    else none
  | _ => some { n with called := true }

/-- Cronet and the application. -/
def outsideStep (s : Shared) : Outside → Choice → Option (Shared × List Thread)
  | .cronet, .callback c =>
    if s.native.accepting then
      (s.native.call c).map fun native =>
        ({ s with native := native, trace := s.trace ++ [.callbackBegun c] },
          [.outside .cronet, .callback (.entered c)])
    else none
  | .app, .cancel => some (s, [.outside .app, .control (.store .app)])
  | .app, .shutdown => some (s, [.outside .app, .shutdown .close])
  | _, _ => none

/-- One step of one thread. -/
def step (s : Shared) : Thread → Choice → Option (Shared × List Thread)
  | .outside who, ch => outsideStep s who ch
  | .openStream p, ch => openStep cfg s p ch
  | .shutdown p, ch => shutdownStep s p ch
  | .control p, ch => controlStep s p ch
  | .callback p, ch => callbackStep cfg s p ch
  | .terminal p, ch => terminalStep s p ch
  | .finish p, ch => finishStep s p ch
  | .task p, ch => taskStep cfg s p ch
  | .writer p, ch => writerStep s p ch
  | .stream p, ch => streamStep cfg s p ch
  | .cleanup p, ch => cleanupStep s p ch

/-- A call of `Engine::bidirectional` that has not read `closing` yet. -/
def start : Pool.Listed Shared Thread :=
  ⟨{}, [.openStream .load, .outside .cronet, .outside .app]⟩

end TokioCronet.Bidirectional
