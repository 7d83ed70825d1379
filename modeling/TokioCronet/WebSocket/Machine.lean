import TokioCronet.Lib.Pool
import TokioCronet.WebSocket.State

/-!
# The program of a WebSocket

One step function for each group of functions in `websocket.rs` and
`cronet_rs_websocket.cc`, and `step`, which hands a thread to its group; the threads of
the engine take the steps of the engine's own program. A step is one atomic access,
one lock section, one task or one native call.

The channel may report anything in any order; it reports nothing when there is none.
-/

namespace TokioCronet.WebSocket

/-! ## Updates of the state -/

/-- The engine that the native socket points to is gone. -/
def Shared.engineGone (s : Shared) : Bool := Engine.Event.destroyed ∈ s.engine.trace

/-- A method of the socket reads the context of its engine. -/
def Shared.reach (s : Shared) : Shared :=
  { s with trace := s.trace ++ if s.engineGone then [.reached] else [] }

/-- What posting a task adds to the queue: nothing without a `CronetContext`. -/
def Shared.posts (s : Shared) (task : NetTask) : List NetTask :=
  if s.native.stopped then [] else [task]

/-- `PostTaskToNetworkThread` -/
def Shared.post (s : Shared) (task : NetTask) : Shared :=
  { s with native.tasks := s.native.tasks ++ s.posts task,
           trace := s.trace ++ (s.posts task).map .posted }

/-- `sender.send` on the open channel, once. -/
def Shared.answer (s : Shared) (result : Result String) : Shared :=
  { s with context.opener := false,
           context.opened := if s.context.opener then some result else s.context.opened }

/-- `messages.try_send` -/
def Shared.trySend (s : Shared) (item : Item) : Shared :=
  { s with messages.queue :=
             if s.messages.receiver && s.messages.queue.length < Messages.capacity then
               s.messages.queue ++ [item]
             else s.messages.queue,
           trace := s.trace ++ [.delivered item] }

/-- `terminal.send`, which keeps nothing when nobody receives. -/
def Shared.finish (s : Shared) (result : Result Unit) : Shared :=
  { s with context.terminal := if s.messages.receiver then some result else s.context.terminal,
           trace := s.trace ++ [.finished result] }

/-- What dropping the socket's operation starts. -/
def Shared.operationDrop (s : Shared) : List Thread :=
  if s.context.operation then [.engine .dropOperation] else []

/-- `operation.take()` -/
def Shared.takeOperation (s : Shared) : Shared := { s with context.operation := false }

/-- Drop one `Arc<WsContext>`; the last one takes the sender of the messages with it, and
the operation if it is still there. -/
def Shared.releaseArc (s : Shared) : Shared × List Thread :=
  if s.context.life = .live then
    if s.context.arcs = 1 then
      ({ s with context.arcs := 0, context.life := .gone, context.operation := false,
                messages.senders := s.messages.senders - 1 }, s.operationDrop)
    else ({ s with context.arcs := s.context.arcs - 1 }, [])
  else (s, [])

/-- `NotifyOpen` and its like: the event, and where the thread goes. -/
def Shared.notified (s : Shared) (c : Callback) : Shared :=
  { s with trace := s.trace ++ if s.native.callbacks then [.callbackBegun c] else [] }

/-- `NotifyOpen` and its like call back only while there are callbacks. -/
def Shared.notify (s : Shared) (c : Callback) : InCallback :=
  if s.native.callbacks then .entered c else .returns

/-- What `Connect` and `Send` report without a `CronetContext`. -/
def notStarted : Callback := .failure (some "engine is not started") (-9)

/-- What `SendOnNetworkThread` reports without a channel. -/
def notConnected : Callback := .failure (some "WebSocket is not connected") (-100)

/-! ## `open_websocket` -/

/-- It returns before there is a native socket, and the operation goes with it. -/
def Shared.openFailed (s : Shared) (e : Error) : Shared :=
  { s with context.operation := false, context.life := .gone, messages.receiver := false,
           trace := s.trace ++ [.returned (.error e)] }

/-- `open_websocket` -/
def openStep (s : Shared) : Open → Choice → Option (Shared × List Thread)
  -- `WsContext` and `Cronet_RS_WebSocket_Create`
  | .create, .go =>
    some ({ s with context.arcs := 1, context.life := .live, messages.senders := 1,
                   native.socket := .live, trace := s.trace ++ [.created] }, [.opening .setNative])
  | .create, .outOfMemory =>
    some (s.openFailed (.allocationFailed "websocket"), s.operationDrop ++ [.engine .releaseArc])
  -- `to_cstring`, before any of that
  | .create, .invalid field =>
    some (s.openFailed (.invalidString field), s.operationDrop ++ [.engine .releaseArc])
  | .setNative, .go => some ({ s with control.native := true }, [.opening .registerPush])
  -- `EngineInner::register`
  | .registerPush, .go =>
    if s.controlsLock then none
    else some ({ s with controlsLock := true, registered := true }, [.opening .registerLoad])
  | .registerLoad, .go =>
    if s.engine.closing then
      some ({ s with controlsLock := false }, [.cancel (.load .registering)])
    else some ({ s with controlsLock := false }, [.opening .setCallbacks])
  -- the callbacks get an `Arc` of the context of their own
  | .setCallbacks, .go =>
    some ({ s with context.arcs := s.context.arcs + 1, native.callbacks := true },
      [.opening .connect])
  -- `Connect`
  | .connect, .go =>
    if s.native.stopped then
      some (s.reach.notified notStarted, [.callback (s.notify notStarted) .connect])
    else some (s.reach.post .connect, [.opening .await])
  | .await, .go =>
    match s.context.opened with
    | some (.ok _) =>
      some ({ s with trace := s.trace ++ [.returned (.ok ())] },
        [.socket .idle, .engine .releaseArc])
    | some (.error e) => some (s, [.destroy (.clear (.failed e))])
    | none =>
      if s.context.life = .gone then
        some (s, [.destroy (.clear (.failed .callbackChannelClosed))])
      else none
  -- the future is dropped, and the native socket with its `Arc` is leaked
  | .await, .drop =>
    some ({ s with messages.receiver := false, messages.queue := [] },
      [.releaseArc, .engine .releaseArc])
  | _, _ => none

/-! ## Cancelling -/

/-- What follows `WsControl::cancel`. -/
def Canceler.after (s : Shared) : Canceler → Shared × List Thread
  | .shutdown => ({ s with trace := s.trace ++ [.cancelled] }, [.engine .shutdownCell])
  | .registering => (s, [.destroy (.clear .refused)])

/-- `WsControl::cancel` -/
def cancelStep (s : Shared) : Cancel → Choice → Option (Shared × List Thread)
  | .load who, .go =>
    if s.control.native then some (s, [.cancel (.close who)]) else some (who.after s)
  | .close who, .go => some (who.after (s.post (.close 1001 "")))
  | _, _ => none

/-- `EngineInner::shutdown` upgrades the controls it finds and cancels them. -/
def snapshotStep (s : Shared) : Choice → Option (Shared × List Thread)
  | .go =>
    if s.controlsLock then none
    else if s.registered ∧ s.context.life = .live then some (s, [.cancel (.load .shutdown)])
    else some (Canceler.shutdown.after s)
  | _ => none

/-! ## The `WebSocket` -/

/-- `next_message`, `send_text`, `send_binary` and `close`, and the drop of a `WebSocket`. -/
def socketStep (s : Shared) : Socket → Choice → Option (Shared × List Thread)
  | .idle, .next =>
    match s.messages.queue with
    | item :: queue =>
      some ({ s with messages.queue := queue, trace := s.trace ++ [.received (some item)] },
        [.socket .idle])
    | [] =>
      if s.messages.senders = 0 then
        some ({ s with trace := s.trace ++ [.received none] }, [.socket .idle])
      else none
  | .idle, .send payload binary =>
    if s.context.terminal.isSome then some (s, [.socket .idle])
    else some (s, [.socket (.send payload binary)])
  | .idle, .close code reason =>
    -- `to_cstring`
    if Char.ofNat 0 ∈ reason.toList then some (s, [.socket .idle])
    else some (s, [.socket (.close code reason)])
  | .idle, .cancel => some (s, [.socket (.close 1001 "")])
  | .idle, .drop => some (s, [.destroy (.clear .handle)])
  | .send payload binary, .go =>
    if s.native.stopped then
      some (s.reach.notified notStarted, [.callback (s.notify notStarted) .socket])
    else some (s.reach.post (.send payload binary), [.socket .idle])
  | .close code reason, .go => some (s.reach.post (.close code reason), [.socket .idle])
  | _, _ => none

/-- What `open_websocket` returns once it has destroyed the native socket. -/
def Destroyer.returns : Destroyer → List Event
  | .refused => [.returned (.error .engineShutdown)]
  | .failed e => [.returned (.error e)]
  | .handle => []

/-- What is given back then: the `Arc` that the callbacks had, the owner's own one, and
the reference of the call. -/
def Destroyer.releases : Destroyer → List Thread
  | .refused => [.releaseArc, .engine .releaseArc]
  | .failed _ => [.releaseArc, .releaseArc, .engine .releaseArc]
  | .handle => [.releaseArc, .releaseArc]

/-- `DestroyAndWait` runs again in the destructor. -/
def Destroyer.next (who : Destroyer) (again : Bool) : Thread :=
  .destroy (if again then .delete who else .post who true)

/-- `clear_native` and `Cronet_RS_WebSocket_Destroy` -/
def destroyStep (s : Shared) : Destroy → Choice → Option (Shared × List Thread)
  | .clear who, .go => some ({ s with control.native := false }, [.destroy (.post who false)])
  | .post who again, .go =>
    if s.native.stopped then
      some ({ s.reach with native.channel := false }, [who.next again])
    else some ({ s.reach with native.destroyed := false }.post .destroy,
      [.destroy (.wait who again)])
  | .wait who again, .go => if s.native.destroyed then some (s, [who.next again]) else none
  | .delete who, .go =>
    some ({ s with native.socket := .gone, messages.receiver := false, messages.queue := [],
                   trace := s.trace ++ .destroyed :: who.returns }, who.releases)
  | _, _ => none

/-! ## The network thread -/

/-- `OnDropChannel` and `OnFailChannel` reset the channel after their callback. -/
def Callback.resets : Callback → Bool
  | .closed | .failure _ _ => true
  | _ => false

/-- The network thread takes its first task. -/
def Shared.ran (s : Shared) (task : NetTask) (tasks : List NetTask) : Shared :=
  { s with native.tasks := tasks, trace := s.trace ++ [.ran task] }

/-- The network thread runs the tasks, and the channel calls the handler. -/
def networkStep (s : Shared) : Choice → Option (Shared × List Thread)
  | .run =>
    match s.native.tasks with
    | [] => none
    | .connect :: tasks => some ({ s.ran .connect tasks with native.channel := true }, [.network])
    | .send payload binary :: tasks =>
      if s.native.channel then some (s.ran (.send payload binary) tasks, [.network])
      else
        some ((s.ran (.send payload binary) tasks).notified notConnected,
          [.callback (s.notify notConnected) (.network false)])
    | .close code reason :: tasks => some (s.ran (.close code reason) tasks, [.network])
    | .destroy :: tasks =>
      some ({ s.ran .destroy tasks with native.channel := false, native.destroyed := true },
        [.network])
  -- `ConnectOnNetworkThread` finds a bad URL, or no context
  | .refuse text netError =>
    match s.native.tasks with
    | .connect :: tasks =>
      some ((s.ran .connect tasks).notified (.failure (some text) netError),
        [.callback (s.notify (.failure (some text) netError)) (.network false)])
    | _ => none
  | .event c =>
    if s.native.channel then some (s.notified c, [.callback (s.notify c) (.network c.resets)])
    else none
  | _ => none

/-! ## Callbacks -/

/-- Where a callback goes from its entry. -/
def Callback.body : Callback → InCallback
  | .opened protocol => .answers (.opened protocol)
  | .message data isBinary => .sends (.message data isBinary)
  | .closing => .returns
  | .closed => .terminal .closed
  | .failure text netError => .answers (.failure text netError)

/-- The bodies of the callbacks. -/
def callbackStep (s : Shared) (caller : Caller) :
    InCallback → Choice → Option (Shared × List Thread)
  -- `on_closing` does not look at its context
  | .entered .closing, .go => some (s, [.callback .returns caller])
  -- `context_from`
  | .entered c, .go =>
    some ({ s with context.arcs := s.context.arcs + 1 }, [.callback c.body caller])
  | .answers (.opened protocol), .go =>
    some (s.answer (.ok (protocol.getD "")), [.callback .release caller])
  | .answers (.failure message netError), .go =>
    some (s.answer (.error (failureError message netError)),
      [.callback (.sends (.failure message netError)) caller])
  | .sends (.message data binary), .go =>
    some (s.trySend ((Callback.message data binary).item.getD (.error .canceled)),
      [.callback .release caller])
  | .sends (.failure message netError), .go =>
    some (s.trySend (.error (failureError message netError)),
      [.callback (.terminal (.failure message netError)) caller])
  -- `finish`
  | .terminal c, .go =>
    match c.result with
    | some result => some (s.finish result, [.callback .operation caller])
    | none => none
  | .operation, .go =>
    some (s.takeOperation, s.operationDrop ++ [.callback .release caller])
  | .release, .go =>
    some (s.releaseArc.1, s.releaseArc.2 ++ [.callback .returns caller])
  | .returns, .go =>
    match caller with
    | .network reset =>
      some ({ s with native.channel := s.native.channel && !reset }, [.network])
    | .connect => some (s, [.opening .await])
    | .socket => some (s, [.socket .idle])
  | _, _ => none

/-! ## The program -/

/-- The engine's threads take the engine's steps. The operation of this socket goes to
`open_websocket`, and a shutdown cancels what it finds before it waits. -/
def engineStep (s : Shared) (t : Engine.Thread User) (ch : Engine.Choice User) :
    Option (Shared × List Thread) :=
  match t, ch with
  | .handle, .beginOperation .socket => none
  | .admitted .socket, .keep =>
    (Engine.step s.engine t ch).map fun p =>
      ({ s with engine := p.1, context.operation := true }, [.opening .create])
  | .admitted .socket, _ => none
  | .shutdownUnlock, _ =>
    (Engine.step s.engine t ch).map fun p => ({ s with engine := p.1 }, [.snapshot])
  | .nativeStop _, .result code =>
    (Engine.step s.engine t ch).map fun p =>
      ({ s with engine := p.1, native.stopped := s.native.stopped || (check code == .ok ()) },
        p.2.map .engine)
  | _, _ =>
    (Engine.step s.engine t ch).map fun p => ({ s with engine := p.1 }, p.2.map .engine)

/-- One step of one thread. -/
def step (s : Shared) : Thread → Choice → Option (Shared × List Thread)
  | .engine t, .engine ch => engineStep s t ch
  | .engine _, _ => none
  | .opening p, ch => openStep s p ch
  | .snapshot, ch => snapshotStep s ch
  | .cancel p, ch => cancelStep s p ch
  | .socket p, ch => socketStep s p ch
  | .destroy p, ch => destroyStep s p ch
  | .network, ch => networkStep s ch
  | .callback p caller, ch => callbackStep s caller p ch
  | .releaseArc, .go => some s.releaseArc
  | .releaseArc, _ => none

/-- A handle on a fresh engine, and a call of `open_websocket` on it. -/
def start : Pool.Listed Shared Thread :=
  ⟨{ engine := { arcs := 2 } },
    [.engine .handle, .engine (.beginLoad .socket), .engine .cronet, .network]⟩

end TokioCronet.WebSocket
