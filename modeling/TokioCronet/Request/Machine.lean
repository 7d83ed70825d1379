import Mathlib.Tactic.SplitIfs
import TokioCronet.Lib.Pool
import TokioCronet.Request.State

/-!
# The program of a URL request

One step function for each group of functions in `request.rs`, and `step`, which
hands a thread to its group. A step is one atomic access, one lock section or one
native call. A step that has to wait for a lock, a permit or a wake-up is not
enabled.

The native side is a thread like the others. What is fixed here is only that it
makes no callback for a request whose `Start` was not called or has failed; what
else is documented of Cronet is assumed by name where a result needs it.
-/

namespace TokioCronet.Request

variable (cfg : Settings)

/-! ## Updates of the state -/

/-- `if pending.is_none() { *pending = Some(error) }`. -/
def Shared.record (s : Shared) (e : Error) : Shared :=
  { s with context.requestError := s.context.requestError.or (some e),
           trace := s.trace ++ [.recorded e] }

/-- `if state.buffer == buffer { state.buffer = ptr::null_mut() }`. -/
def CallbackState.forget (c : CallbackState) (b : BufferId) : CallbackState :=
  if c.buffer = some b then { c with buffer := none } else c

/-- Drop one `Arc<CallbackContext>`; the last one takes the context's own
`body_sender` with it. -/
def Shared.releaseArc (s : Shared) : Shared :=
  if s.context.life = .live then
    if s.context.arcs = 1 then
      { s with context.arcs := 0, context.life := .gone, body.senders := s.body.senders - 1 }
    else { s with context.arcs := s.context.arcs - 1 }
  else s

@[simp] theorem Shared.record_context (s : Shared) (e : Error) : (s.record e).context =
    { s.context with requestError := s.context.requestError.or (some e) } := rfl

@[simp] theorem Shared.record_trace (s : Shared) (e : Error) :
    (s.record e).trace = s.trace ++ [.recorded e] := rfl

section Untouched

variable (s : Shared) (e : Error)

@[simp] theorem Shared.record_engine : (s.record e).engine = s.engine := rfl
@[simp] theorem Shared.record_control : (s.record e).control = s.control := rfl
@[simp] theorem Shared.record_body : (s.record e).body = s.body := rfl
@[simp] theorem Shared.record_native : (s.record e).native = s.native := rfl

@[simp] theorem Shared.releaseArc_engine : s.releaseArc.engine = s.engine := by
  unfold Shared.releaseArc; split_ifs <;> rfl

@[simp] theorem Shared.releaseArc_control : s.releaseArc.control = s.control := by
  unfold Shared.releaseArc; split_ifs <;> rfl

@[simp] theorem Shared.releaseArc_native : s.releaseArc.native = s.native := by
  unfold Shared.releaseArc; split_ifs <;> rfl

@[simp] theorem Shared.releaseArc_trace : s.releaseArc.trace = s.trace := by
  unfold Shared.releaseArc; split_ifs <;> rfl

@[simp] theorem Shared.releaseArc_state : s.releaseArc.context.state = s.context.state := by
  unfold Shared.releaseArc; split_ifs <;> rfl

@[simp] theorem Shared.releaseArc_callbackCount :
    s.releaseArc.context.callbackCount = s.context.callbackCount := by
  unfold Shared.releaseArc; split_ifs <;> rfl

@[simp] theorem Shared.releaseArc_headersSender :
    s.releaseArc.context.headersSender = s.context.headersSender := by
  unfold Shared.releaseArc; split_ifs <;> rfl

@[simp] theorem Shared.releaseArc_headers :
    s.releaseArc.context.headers = s.context.headers := by
  unfold Shared.releaseArc; split_ifs <;> rfl

@[simp] theorem Shared.releaseArc_headersReceiver :
    s.releaseArc.context.headersReceiver = s.context.headersReceiver := by
  unfold Shared.releaseArc; split_ifs <;> rfl

@[simp] theorem Shared.releaseArc_terminalSignal :
    s.releaseArc.context.terminalSignal = s.context.terminalSignal := by
  unfold Shared.releaseArc; split_ifs <;> rfl

@[simp] theorem Shared.releaseArc_requestError :
    s.releaseArc.context.requestError = s.context.requestError := by
  unfold Shared.releaseArc; split_ifs <;> rfl

@[simp] theorem Shared.releaseArc_finished :
    s.releaseArc.context.finished = s.context.finished := by
  unfold Shared.releaseArc; split_ifs <;> rfl

@[simp] theorem Shared.releaseArc_receiver :
    s.releaseArc.body.receiver = s.body.receiver := by
  unfold Shared.releaseArc; split_ifs <;> rfl

@[simp] theorem Shared.releaseArc_queue : s.releaseArc.body.queue = s.body.queue := by
  unfold Shared.releaseArc; split_ifs <;> rfl

end Untouched

/-- What the native side notes about a callback it hands to the executor. A
completion answers the read of its buffer, a success the last read. -/
def Native.submit (n : Native) : Runnable → Native
  | .responseStarted _ => { n with submitted := true, responded := true }
  | .readCompleted b _ _ =>
    { n with submitted := true, reading := if n.reading = some b then none else n.reading }
  | .succeeded =>
    { n with submitted := true, reading := none, terminalSubmitted := true, succeeded := true }
  | .failed _ | .canceled => { n with submitted := true, terminalSubmitted := true }
  | .finished _ => { n with submitted := true, finishedSubmitted := true }
  | _ => { n with submitted := true }

/-- A callback begins; a completion hands its buffer back. -/
def Native.begin (n : Native) : Runnable → Native
  | .readCompleted b _ _ => { n with buffers := n.buffers.set b .app }
  | .succeeded | .failed _ | .canceled => { n with terminalBegun := true }
  | .finished _ => { n with finishedBegun := true }
  | _ => n

/-- `Read` takes the buffer unless it answers `UNEXPECTED_READ`. -/
def Native.read (n : Native) (b : BufferId) (code : Option ResultCode) : Native :=
  match code with
  | none => { n with buffers := n.buffers.set b .cronet, reading := some b }
  | some .unexpectedRead => n
  | some _ => { n with buffers := n.buffers.set b .cronet }

/-! ## `start_request` and `EngineInner::shutdown` -/

/-- `start_request` gives up before there is anything to drop. -/
def refuse (e : Error) : List Thread :=
  [.start (.returned (.error e)), .execute (.returned (.error e))]

/-- `start_request` -/
def startStep (s : Shared) : Start → Choice → Option (Shared × List Thread)
  -- `begin_operation`
  | .load, .go =>
    if s.engine.closing then some (s, refuse .engineShutdown) else some (s, [.start .admission])
  | .admission, .go =>
    if s.engine.closing then some (s, refuse .engineShutdown) else some (s, [.start .new])
  -- `CallbackContext` and `NativeRequest::new`
  | .new, .go =>
    some ({ s with control.raw := true, native.request := .live, context.life := .live,
                   context.arcs := 2, body.senders := 1 }, [.start .registerPush])
  | .new, .outOfMemory kind => some (s, refuse (.allocationFailed kind))
  -- `EngineInner::register`
  | .registerPush, .go =>
    if s.engine.controlsLock then none
    else some ({ s with engine.controlsLock := true, engine.registered := true },
      [.start .registerLoad])
  | .registerLoad, .go =>
    if s.engine.closing then
      some ({ s with engine.controlsLock := false }, [.control (.store .registering)])
    else some ({ s with engine.controlsLock := false }, [.start .configure])
  | .configure, .go => some (s, [.start .init])
  | .configure, .outOfMemory kind => some (s, [.cleanup (.drop (.failed (.allocationFailed kind)))])
  | .configure, .tooLong =>
    some (s, [.cleanup (.drop (.failed
      (.invalidConfiguration "upload length does not fit int64_t")))])
  | .init, .result none => some ({ s with trace := s.trace ++ [.init] }, [.start .start])
  | .init, .result (some code) =>
    some ({ s with trace := s.trace ++ [.init] }, [.cleanup (.drop (.failed (.cronet code)))])
  | .start, .go =>
    some ({ s with native.accepting := true, trace := s.trace ++ [.start] }, [.start .startReturn])
  | .startReturn, .result none =>
    some ({ s with trace := s.trace ++ [.started] }, [.start .loadCancel])
  | .startReturn, .result (some code) =>
    if s.native.submitted then none
    else some ({ s with native.accepting := false }, [.cleanup (.drop (.failed (.cronet code)))])
  | .loadCancel, .go =>
    if s.control.cancelRequested then
      some ({ s with trace := s.trace ++ [.cancelRead true] }, [.control (.store .started)])
    else some ({ s with trace := s.trace ++ [.cancelRead false] }, [.start .spawn])
  -- the cleanup task takes the `NativeRequest` and an `Arc` of the context
  | .spawn, .go =>
    some ({ s with context.arcs := s.context.arcs + 1 },
      [.cleanup .terminal, .task .releaseArc, .start (.returned (.ok ())), .execute .headers])
  | _, _ => none

/-- The call of `Engine::shutdown`, as far as this request sees it. -/
def shutdownStep (s : Shared) : Shutdown → Choice → Option (Shared × List Thread)
  | .close, .go => some ({ s with engine.closing := true }, [.shutdown .snapshot])
  | .snapshot, .go =>
    if s.engine.controlsLock then none
    else if s.engine.registered then some (s, [.control (.store .shutdown)])
    else some (s, [.shutdown .done])
  | _, _ => none

/-! ## `RequestControl` -/

/-- What `follow_redirect` returns when it finds the request gone. -/
def GatedOp.refused : GatedOp → Option Error
  | .followRedirect _ => some .canceled
  | _ => none

/-- What follows once the gate is released. -/
def GatedOp.after : GatedOp → Option Error → List Thread
  | .cancel .app, _ => []
  | .cancel .shutdown, _ => [.shutdown .done]
  | .cancel .registering, _ => [.cleanup (.drop (.failed .engineShutdown))]
  | .cancel .started, _ => [.start .spawn]
  | .cancel .leaking, _ => [.task .releaseArc]
  | .cancel (.task true), _ => [.task (.releaseSender true)]
  | .cancel (.task false), _ => [.task .releaseArc]
  | .cancel (.consumer result), _ => [.execute (.closeBody result)]
  | .followRedirect .callback, none => [.callback .leave]
  | .followRedirect .callback, some e => [.read (.record .callback e)]
  | .followRedirect .task, none => [.task .releaseArc]
  | .followRedirect .task, some e => [.task (.record false e)]
  | .status, _ => []
  | .resumeRead _, _ => [.task (.releaseSender true)]

/-- The methods of `RequestControl`, and what each of them does under the mutex. -/
def controlStep (s : Shared) : Control → Choice → Option (Shared × List Thread)
  | .statusLoad, .go =>
    if s.control.done then some (s, []) else some (s, [.control (.lock .status)])
  | .statusLoad, .outOfMemory _ => some (s, [])
  | .store who, .go =>
    some ({ s with control.cancelRequested := true }, [.control (.lock (.cancel who))])
  | .lock op, .go =>
    if s.control.gate then none
    else some ({ s with control.gate := true }, [.control (.raw op)])
  | .raw op, .go =>
    if s.control.raw then some (s, [.control (.done op)])
    else some (s, [.control (.unlock op op.refused)])
  | .done op, .go =>
    if s.control.done then some (s, [.control (.unlock op op.refused)])
    else some (s, [.control (.call op)])
  | .call (.cancel who), .go =>
    some ({ s with trace := s.trace ++ [.cancel] }, [.control (.unlock (.cancel who) none)])
  | .call (.followRedirect who), .result code =>
    some ({ s with trace := s.trace ++ [.followRedirect] },
      [.control (.unlock (.followRedirect who) (code.map .cronet))])
  | .call .status, .go =>
    some ({ s with trace := s.trace ++ [.getStatus] }, [.control (.unlock .status none)])
  -- `resume_read` keeps the gate over the whole of `read`
  | .call (.resumeRead b), .go => some (s, [.read (.call (.gated b) b)])
  | .unlock op e, .go => some ({ s with control.gate := false }, op.after e)
  | _, _ => none

/-! ## Runnables and callbacks -/

/-- What the extern function of a runnable does once it has its lease. -/
def Runnable.callback : Runnable → Thread
  | .redirectReceived info location => .callback (.redirect info location)
  | .responseStarted info => .callback (.headers info)
  | .readCompleted b n content => .callback (.own b n content)
  | .succeeded => .terminal (.first none)
  | .failed e => .terminal (.first (some (.network e)))
  | .canceled => .terminal (.first (some .canceled))
  | .finished info => .callback (.finished info)
  | .upload op => .upload (.entered op)
  | .uploadClose => .upload .close

/-- The upload callbacks work on the `UploadContext` and take no lease. -/
def Runnable.leases : Runnable → Bool
  | .upload _ | .uploadClose => false
  | _ => true

/-- The executor's task; the last stage is `callback_context` with
`CallbackLease::new`. -/
def runnableStep (s : Shared) : Stage → Runnable → Choice → Option (Shared × List Thread)
  | .queued, r, .go =>
    some ({ s with trace := s.trace ++ [.runnableStarted r] }, [.runnable .running r])
  | .running, r, .go =>
    some ({ s with native := s.native.begin r, trace := s.trace ++ [.callbackBegun r] },
      [.runnable .entered r])
  | .running, _, .skip => some (s, [])
  | .entered, r, .go =>
    if r.leases then
      some ({ s with context.callbackCount := s.context.callbackCount + 1,
                     context.arcs := s.context.arcs + 1 }, [r.callback])
    else some (s, [r.callback])
  | _, _, _ => none

/-- Where `read` and `fail_then_cancel` return to. -/
def Site.leave : Site → List Thread
  | .callback => [.callback .leave]
  | .headers => [.read .unlockHeaders]
  | .gated b => [.control (.unlock (.resumeRead b) none)]

/-- `resume_read` and `fail_then_cancel` -/
def readStep (s : Shared) : Read → Choice → Option (Shared × List Thread)
  | .call site b, .result code =>
    some ({ s with native := s.native.read b code, trace := s.trace ++ [.read b code] },
      [.read (.returned site b code)])
  | .returned site b none, .go =>
    some ({ s with context.state := s.context.state.forget b }, site.leave)
  | .returned site _ (some .unexpectedRead), .go =>
    some (s, [.read (.record site (.cronet .unexpectedRead))])
  | .returned site b (some code), .go =>
    some ({ s with context.state := s.context.state.forget b },
      [.read (.record site (.cronet code))])
  | .record site e, .go => some (s.record e, [.read (.cancel site)])
  | .cancel site, .go => some ({ s with trace := s.trace ++ [.cancel] }, site.leave)
  | .unlockHeaders, .go => some ({ s with context.headersLock := false }, [.callback .leave])
  | _, _ => none

/-- The bodies of the callbacks. -/
def callbackStep (s : Shared) : Callback → Choice → Option (Shared × List Thread)
  | .redirect info location, .go =>
    match cfg.redirectPolicy with
    | .follow => some (s, [.control (.lock (.followRedirect .callback))])
    | .cancel => some (s, [.read (.record .callback (.redirect location info))])
    | .handler =>
      some ({ s with context.arcs := s.context.arcs + 1 },
        [.task (.decide info location), .callback .leave])
  -- `on_response_started`; the guard of `headers_sender` spans a refused send
  | .headers info, .go =>
    if s.context.headersLock then none
    else if s.context.headersSender then
      if s.context.headersReceiver then
        some ({ s with context.headersSender := false, context.headers := some (.ok info),
                       trace := s.trace ++ [.responseHeaders info] }, [.callback .allocate])
      else
        some ({ s with context.headersSender := false, context.headersLock := true,
                       trace := s.trace ++ [.responseHeaders info] },
          [.read (.record .headers .canceled)])
    else some (s, [.callback .allocate])
  | .allocate, .go =>
    some ({ s with native.buffers := s.native.buffers ++ [.app],
                   trace := s.trace ++ [.bufferCreated s.native.buffers.length] },
      [.callback (.ownCreated s.native.buffers.length)])
  | .allocate, .outOfMemory _ =>
    some (s, [.read (.record .callback (.allocationFailed "read buffer"))])
  | .ownCreated b, .go =>
    some ({ s with context.state.buffer := some b }, [.read (.call .callback b)])
  -- `on_read_completed`
  | .own b n content, .go =>
    some ({ s with context.state.buffer := some b }, [.callback (.account b n content)])
  | .account b n content, .go =>
    if cfg.bufferSize < n then
      some (s, [.read (.record .callback (.invalidReadSize n cfg.bufferSize))])
    else if cfg.usizeMax < n ∨ cfg.usizeMax < s.context.state.received + n ∨
        cfg.maxResponseBytes < s.context.state.received + n then
      some (s, [.read (.record .callback (.responseTooLarge cfg.maxResponseBytes))])
    else
      some ({ s with context.state.received := s.context.state.received + n },
        [.callback (.copy b n content)])
  | .copy b n content, .go =>
    if n = 0 then some (s, [.read (.call .callback b)])
    else
      match content with
      | none => some (s, [.read (.record .callback (.allocationFailed "read buffer data"))])
      | some bytes =>
        some ({ s with body.senders := s.body.senders + 1, context.arcs := s.context.arcs + 1 },
          [.task (.send b (bytes.take n)), .callback .leave])
  | .finished info, .go => some ({ s with context.finished := some info }, [.callback .leave])
  -- `Drop for CallbackLease`
  | .leave, .go =>
    if s.context.callbackCount = 1 then
      some ({ s with context.callbackCount := 0 }, [.callback .notify])
    else some ({ s with context.callbackCount := s.context.callbackCount - 1 }, [.task .releaseArc])
  | .notify, .go =>
    some ({ s with context.idleEpoch := s.context.idleEpoch + 1 }, [.task .releaseArc])
  | _, _ => none

/-! ## `CallbackContext::terminal` -/

/-- The body learns of an error through a task of its own. -/
def Terminal.report : Option Error → Terminal
  | some e => .spawn e
  | none => .signal

/-- `CallbackContext::terminal` -/
def terminalStep (s : Shared) : Terminal → Choice → Option (Shared × List Thread)
  | .first fallback, .go =>
    if s.context.state.terminal then some (s, [.callback .leave])
    else some ({ s with context.state.terminal := true }, [.terminal (.done fallback)])
  | .done fallback, .go =>
    some ({ s with control.done := true, trace := s.trace ++ [.done] },
      [.terminal (.take fallback)])
  | .take fallback, .go =>
    some ({ s with context.requestError := none,
                   trace := s.trace ++ [.consumed fallback (s.context.requestError.or fallback)] },
      [.terminal (.headers (s.context.requestError.or fallback))])
  | .headers error, .go =>
    if s.context.headersLock then none
    else if s.context.headersSender then
      some ({ s with context.headersSender := false,
                     context.headers := if s.context.headersReceiver then
                         some (.error (error.getD .callbackChannelClosed))
                       else s.context.headers,
                     trace := s.trace ++ [.terminalHeaders (error.getD .callbackChannelClosed)] },
        [.terminal (Terminal.report error)])
    else some (s, [.terminal (Terminal.report error)])
  | .spawn e, .go =>
    some ({ s with body.senders := s.body.senders + 1 },
      [.task (.sendError e), .terminal .signal])
  | .signal, .go =>
    if s.context.terminalSender then
      some ({ s with context.terminalSender := false, context.terminalSignal := true },
        [.callback .leave])
    else some (s, [.callback .leave])
  | _, _ => none

/-! ## Spawned tasks -/

/-- The tasks that a callback spawns. -/
def taskStep (s : Shared) : Task → Choice → Option (Shared × List Thread)
  -- the redirect task waits for its handler and for the finished callback
  | .decide _ _, .decide .follow => some (s, [.control (.lock (.followRedirect .task))])
  | .decide info location, .decide .cancel =>
    some (s, [.task (.record false (.redirect location info))])
  | .decide _ _, .decide (.panicked message) =>
    some (s, [.task (.record false
      (.tokioTask ("redirect handler did not complete: " ++ message)))])
  | .decide _ _, .go => if s.context.finished.isSome then some (s, [.task .releaseArc]) else none
  | .send b chunk, .go =>
    if s.body.receiver then
      if s.body.queue.length < cfg.bodyChannelCapacity then
        some ({ s with body.queue := s.body.queue ++ [.ok chunk],
                       trace := s.trace ++ [.pushed chunk] },
          [.control (.lock (.resumeRead b))])
      else none
    else some (s, [.task (.record true .canceled)])
  | .sendError e, .go =>
    if s.body.receiver then
      if s.body.queue.length < cfg.bodyChannelCapacity then
        some ({ s with body.queue := s.body.queue ++ [.error e],
                       trace := s.trace ++ [.bodyError e] },
          [.task (.releaseSender false)])
      else none
    else some (s, [.task (.releaseSender false)])
  | .record sender e, .go => some (s.record e, [.control (.store (.task sender))])
  | .releaseSender true, .go =>
    some ({ s with body.senders := s.body.senders - 1 }, [.task .releaseArc])
  | .releaseSender false, .go => some ({ s with body.senders := s.body.senders - 1 }, [])
  | .releaseArc, .go => some (s.releaseArc, [])
  | _, _ => none

/-! ## Uploads -/

/-- `upload_read`, `upload_rewind` and `upload_close`. -/
def uploadStep (s : Shared) : Upload → Choice → Option (Shared × List Thread)
  | .entered (.read capacity), .go =>
    if cfg.usizeMax < capacity then
      some ({ s with trace := s.trace ++ [.sink (.read capacity) false] }, [])
    else some (s, [.upload (.reserve (.read capacity))])
  | .entered .rewind, .go => some (s, [.upload (.closed .rewind)])
  | .reserve op, .go => some (s, [.upload (.closed op)])
  | .reserve op, .outOfMemory _ =>
    some (s, [.upload (.lock op (.error (.allocationFailed "upload buffer")))])
  -- `select!` is biased: each poll looks at `closed` before it polls the source
  | .closed op, .go =>
    if s.upload.closed then some (s, [.upload (.lock op (.error .canceled))])
    else some (s, [.upload (.poll op)])
  | .poll op, .source .pending => some (s, [.upload (.closed op)])
  | .poll op, .source (.ready result) => some (s, [.upload (.lock op result)])
  | .poll op, .source .panicked => some (s, [.upload (.panicked op)])
  -- the sink is completed under `completion_gate`
  | .lock op result, .go =>
    if s.upload.completionGate then none
    else some ({ s with upload.completionGate := true }, [.upload (.locked op result)])
  | .locked op (.ok _), .go =>
    some ({ s with trace := s.trace ++ [.sink op true] }, [.upload .unlock])
  | .locked (.read capacity) (.ok (count, _)), .outOfMemory _ =>
    if count = 0 then none
    else some ({ s with upload.completionGate := false },
      [.upload (.lock (.read capacity) (.error (.allocationFailed "upload buffer data")))])
  | .locked op (.error e), .go => some (s.record e, [.upload (.fail op)])
  | .fail op, .go => some ({ s with trace := s.trace ++ [.sink op false] }, [.upload .unlock])
  | .unlock, .go => some ({ s with upload.completionGate := false }, [])
  | .close, .go => some ({ s with upload.closed := true }, [])
  | _, _ => none

/-! ## The cleanup task and `Drop for NativeRequest` -/

/-- The cleanup task, and the drop of `NativeRequest`. -/
def cleanupStep (s : Shared) : Cleanup → Choice → Option (Shared × List Thread)
  | .terminal, .go => if s.context.terminalSignal then some (s, [.cleanup .finished]) else none
  | .finished, .go => if s.context.finished.isSome then some (s, [.cleanup .count]) else none
  -- `wait_for_callbacks`
  | .count, .go =>
    if s.context.callbackCount = 0 then
      some ({ s with trace := s.trace ++ [.quiesced] }, [.cleanup (.drop .cleanup)])
    else some (s, [.cleanup .arm])
  | .arm, .go => some (s, [.cleanup (.recheck s.context.idleEpoch)])
  | .recheck epoch, .go =>
    if s.context.callbackCount = 0 then some (s, [.cleanup .count])
    else some (s, [.cleanup (.park epoch)])
  | .park epoch, .go =>
    if s.context.idleEpoch = epoch then none else some (s, [.cleanup .count])
  -- a started request that is not done is cancelled and leaked
  | .drop .cleanup, .go =>
    if s.control.done then some (s, [.cleanup (.gate .cleanup)])
    else some (s, [.control (.store .leaking)])
  | .drop (.failed e), .go => some (s, [.cleanup (.gate (.failed e))])
  -- `RequestControl::destroy_request`
  | .gate why, .go =>
    if s.control.gate then none
    else some ({ s with control.gate := true }, [.cleanup (.raw why)])
  | .raw why, .go => some ({ s with control.raw := false }, [.cleanup (.destroy why)])
  | .destroy why, .go =>
    some ({ s with native.request := .gone, trace := s.trace ++ [.destroy] },
      [.cleanup (.unlock why)])
  | .unlock why, .go => some ({ s with control.gate := false }, [.cleanup (.buffer why)])
  | .buffer why, .go =>
    match s.context.state.buffer with
    | some b =>
      some ({ s with native.buffers := s.native.buffers.set b .freed,
                     trace := s.trace ++ [.bufferDestroyed b] }, [.cleanup (.context why)])
    | none => some (s, [.cleanup (.context why)])
  | .context .cleanup, .go => some (s.releaseArc, [.task .releaseArc])
  | .context (.failed e), .go => some (s.releaseArc, .task .releaseArc :: refuse e)
  | _, _ => none

/-! ## `execute_request` -/

/-- `execute_request`, `PendingRequest` and `ResponseBody`. -/
def executeStep (s : Shared) : Execute → Choice → Option (Shared × List Thread)
  | .headers, .go =>
    match s.context.headers with
    | some (.ok info) => some (s, [.execute (.body info [])])
    | some (.error e) => some (s, [.execute (.closeBody (some (.error e)))])
    | none =>
      if s.context.life = .gone then
        some (s, [.control (.store (.consumer (some (.error .callbackChannelClosed))))])
      else none
  | .body info acc, .go =>
    match s.body.queue with
    | .ok chunk :: queue =>
      some ({ s with body.queue := queue }, [.execute (.body info (acc ++ chunk))])
    | .error e :: queue =>
      some ({ s with body.queue := queue }, [.execute (.drop (some (.error e)))])
    | [] => if s.body.senders = 0 then some (s, [.execute (.finished info acc)]) else none
  | .finished info acc, .go =>
    match s.context.finished with
    | some finished => some (s, [.execute (.drop (some (.ok (info, acc, finished))))])
    | none =>
      if s.context.life = .gone then
        some (s, [.execute (.drop (some (.error .callbackChannelClosed)))])
      else none
  -- the future is dropped at an `.await`
  | .headers, .drop | .body _ _, .drop | .finished _ _, .drop => some (s, [.execute (.drop none)])
  | .drop result, .go =>
    if s.control.done then some (s, [.execute (.closeBody result)])
    else some (s, [.control (.store (.consumer result))])
  | .closeBody (some result), .go =>
    some ({ s with context.headersReceiver := false, body.receiver := false, body.queue := [] },
      [.execute (.returned result)])
  | .closeBody none, .go =>
    some ({ s with context.headersReceiver := false, body.receiver := false, body.queue := [] },
      [])
  | _, _ => none

/-! ## The program -/

/-- Cronet and the application. -/
def outsideStep (s : Shared) : Outside → Choice → Option (Shared × List Thread)
  | .cronet, .submit r =>
    if s.native.accepting then
      some ({ s with native := s.native.submit r }, [.outside .cronet, .runnable .queued r])
    else none
  | .cronet, .freeBuffer b =>
    if s.native.buffers[b]? = some .cronet then
      some ({ s with native.buffers := s.native.buffers.set b .freed,
                     trace := s.trace ++ [.bufferDestroyed b] }, [.outside .cronet])
    else none
  | .app, .cancel => some (s, [.outside .app, .control (.store .app)])
  | .app, .status => some (s, [.outside .app, .control .statusLoad])
  | .app, .shutdown => some (s, [.outside .app, .shutdown .close])
  | _, _ => none

/-- One step of one thread. -/
def step (s : Shared) : Thread → Choice → Option (Shared × List Thread)
  | .outside who, ch => outsideStep s who ch
  | .start p, ch => startStep s p ch
  | .shutdown p, ch => shutdownStep s p ch
  | .control p, ch => controlStep s p ch
  | .runnable stage r, ch => runnableStep s stage r ch
  | .callback p, ch => callbackStep cfg s p ch
  | .read p, ch => readStep s p ch
  | .terminal p, ch => terminalStep s p ch
  | .task p, ch => taskStep cfg s p ch
  | .upload p, ch => uploadStep cfg s p ch
  | .cleanup p, ch => cleanupStep s p ch
  | .execute p, ch => executeStep s p ch

/-- A call of `Engine::execute` that has not read `closing` yet. -/
def start : Pool.Listed Shared Thread :=
  ⟨{}, [.start .load, .outside .cronet, .outside .app]⟩

end TokioCronet.Request
