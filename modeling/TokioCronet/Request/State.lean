import TokioCronet.Types

/-!
# The state of a URL request

What the threads of `request.rs` share for one request, and where each of them
stands. A thread is a call into the crate, a spawned Tokio task, or a runnable of
Cronet on its way through the executor; its constructor says which function it
is in, and the position inside that function says which atomic access, lock
section or native call comes next.
-/

namespace TokioCronet.Request

/-- Bytes of a body. -/
abbrev Bytes := List UInt8

/-- Index of a native read buffer, in order of creation. -/
abbrev BufferId := Nat

/-- `RequestFinishedInfo`: copied once and handed on unread. -/
abbrev FinishedInfo := Nat

/-- `RedirectPolicy` -/
inductive RedirectPolicy where
  | follow
  | cancel
  | handler
  deriving DecidableEq

/-- What a request is built with, and the range of `usize`. -/
structure Settings where
  redirectPolicy : RedirectPolicy := .follow
  bufferSize : Nat := 32768
  bodyChannelCapacity : Nat := 8
  maxResponseBytes : Nat := 67108864
  usizeMax : Nat := 2 ^ 64 - 1
  deriving DecidableEq

/-- `upload_read` with the capacity of its buffer, or `upload_rewind`. -/
inductive UploadOp where
  | read (capacity : Nat)
  | rewind
  deriving DecidableEq

/-- A runnable that Cronet hands to the executor: the callback it will make. -/
inductive Runnable where
  | redirectReceived (info : ResponseInfo) (location : String)
  | responseStarted (info : ResponseInfo)
  /-- The content is what `Cronet_Buffer_GetData` points to, if anything. -/
  | readCompleted (buffer : BufferId) (bytesRead : Nat) (content : Option Bytes)
  | succeeded
  | failed (error : NetworkError)
  | canceled
  | finished (info : FinishedInfo)
  | upload (op : UploadOp)
  | uploadClose
  deriving DecidableEq

/-- Whose a native buffer is. -/
inductive Owner where
  | app
  | cronet
  | freed
  deriving DecidableEq

/-- Whether the native request, or the `CallbackContext`, exists. -/
inductive Lifetime where
  | unborn
  | live
  | gone
  deriving DecidableEq

/-- `RequestControl`; `raw` tells whether the pointer is non-null and `gate`
whether the mutex is locked. -/
structure RequestControl where
  raw : Bool := false
  done : Bool := false
  cancelRequested : Bool := false
  gate : Bool := false
  deriving DecidableEq

/-- `CallbackState`. -/
structure CallbackState where
  buffer : Option BufferId := none
  received : Nat := 0
  terminal : Bool := false
  deriving DecidableEq

/-- `CallbackContext`, the oneshot and watch channels it sends on, and its strong
count. -/
structure CallbackContext where
  state : CallbackState := {}
  callbackCount : Nat := 0
  /-- How often `callbacks_idle` was notified. -/
  idleEpoch : Nat := 0
  headersLock : Bool := false
  headersSender : Bool := true
  /-- What the header future resolves to, once sent. -/
  headers : Option (Result ResponseInfo) := none
  headersReceiver : Bool := true
  terminalSender : Bool := true
  terminalSignal : Bool := false
  requestError : Option Error := none
  finished : Option FinishedInfo := none
  arcs : Nat := 0
  life : Lifetime := .unborn
  deriving DecidableEq

/-- The bounded body channel. -/
structure BodyChannel where
  senders : Nat := 0
  queue : List (Result Bytes) := []
  receiver : Bool := true
  deriving DecidableEq

/-- `UploadContext`. -/
structure UploadContext where
  closed : Bool := false
  completionGate : Bool := false
  deriving DecidableEq

/-- What `EngineInner` knows of this request. -/
structure EngineView where
  closing : Bool := false
  controlsLock : Bool := false
  registered : Bool := false
  deriving DecidableEq

/-- The native side of the request. -/
structure Native where
  request : Lifetime := .unborn
  /-- `Cronet_UrlRequest_Start` was called and has not failed. -/
  accepting : Bool := false
  /-- Some runnable was handed to the executor. -/
  submitted : Bool := false
  responded : Bool := false
  terminalSubmitted : Bool := false
  finishedSubmitted : Bool := false
  /-- The callbacks that have begun to run. -/
  terminalBegun : Bool := false
  finishedBegun : Bool := false
  succeeded : Bool := false
  /-- The buffer of an accepted `Read` that has not been answered. -/
  reading : Option BufferId := none
  buffers : List Owner := []
  deriving DecidableEq

/-- What an observer of the native calls and of the channels sees. -/
inductive Event where
  -- calls on the native request
  | init
  | start
  | started
  | read (buffer : BufferId) (code : Option ResultCode)
  | cancel
  | followRedirect
  | getStatus
  | destroy
  -- callbacks
  | runnableStarted (r : Runnable)
  | callbackBegun (r : Runnable)
  -- the cleanup task has seen no callback in progress
  | quiesced
  -- buffers and upload sinks
  | bufferCreated (buffer : BufferId)
  | bufferDestroyed (buffer : BufferId)
  | sink (op : UploadOp) (ok : Bool)
  -- reports
  | cancelRead (requested : Bool)
  | recorded (error : Error)
  | done
  | consumed (fallback : Option Error) (error : Option Error)
  | responseHeaders (info : ResponseInfo)
  | terminalHeaders (error : Error)
  | pushed (chunk : Bytes)
  | bodyError (error : Error)
  deriving DecidableEq

/-- What the threads of one request share. -/
structure Shared where
  engine : EngineView := {}
  control : RequestControl := {}
  context : CallbackContext := {}
  body : BodyChannel := {}
  upload : UploadContext := {}
  native : Native := {}
  trace : List Event := []
  deriving DecidableEq

/-! ## Positions -/

/-- `start_request`. -/
inductive Start where
  | load
  | admission
  | new
  | registerPush
  | registerLoad
  | configure
  | init
  | start
  | startReturn
  | loadCancel
  | spawn
  | returned (result : Result Unit)
  deriving DecidableEq

/-- `EngineInner::shutdown` up to the end of its loop of cancellations. -/
inductive Shutdown where
  | close
  | snapshot
  | done
  deriving DecidableEq

/-- `Response`. -/
abbrev Response := ResponseInfo × Bytes × FinishedInfo

/-- Who called `RequestControl::cancel`. -/
inductive Canceler where
  | app
  | shutdown
  | registering
  | started
  | leaking
  /-- A spawned task; a send task still holds its `Sender`. -/
  | task (sender : Bool)
  /-- The consumer, which then drops what it holds and returns. -/
  | consumer (result : Option (Result Response))
  deriving DecidableEq

/-- Who called `RequestControl::follow_redirect`. -/
inductive Follower where
  | callback
  | task
  deriving DecidableEq

/-- A use of the native request under the gate. -/
inductive GatedOp where
  | cancel (who : Canceler)
  | followRedirect (who : Follower)
  | status
  | resumeRead (buffer : BufferId)
  deriving DecidableEq

/-- `RequestControl`; each operation locks the gate, reads `raw` and `done`, and
makes its native call. -/
inductive Control where
  | statusLoad
  | store (who : Canceler)
  | lock (op : GatedOp)
  | raw (op : GatedOp)
  | done (op : GatedOp)
  | call (op : GatedOp)
  | unlock (op : GatedOp) (error : Option Error)
  deriving DecidableEq

/-- Where `read` and `fail_then_cancel` were called: in a callback, in the callback
that still holds the lock of `headers_sender`, or in `resume_read` under the gate. -/
inductive Site where
  | callback
  | headers
  | gated (buffer : BufferId)
  deriving DecidableEq

/-- `CallbackContext::read` and `fail_then_cancel`. -/
inductive Read where
  | call (site : Site) (buffer : BufferId)
  | returned (site : Site) (buffer : BufferId) (code : Option ResultCode)
  | record (site : Site) (error : Error)
  | cancel (site : Site)
  | unlockHeaders
  deriving DecidableEq

/-- A progress callback, and the drop of the lease at the end of any callback. -/
inductive Callback where
  | redirect (info : ResponseInfo) (location : String)
  | headers (info : ResponseInfo)
  | allocate
  | ownCreated (buffer : BufferId)
  | own (buffer : BufferId) (bytesRead : Nat) (content : Option Bytes)
  | account (buffer : BufferId) (bytesRead : Nat) (content : Option Bytes)
  | copy (buffer : BufferId) (count : Nat) (content : Option Bytes)
  | finished (info : FinishedInfo)
  | leave
  | notify
  deriving DecidableEq

/-- `CallbackContext::terminal`. -/
inductive Terminal where
  | first (fallback : Option Error)
  | done (fallback : Option Error)
  | take (fallback : Option Error)
  | headers (error : Option Error)
  | spawn (error : Error)
  | signal
  deriving DecidableEq

/-- The tasks a callback spawns. -/
inductive Task where
  | decide (info : ResponseInfo) (location : String)
  | send (buffer : BufferId) (chunk : Bytes)
  | sendError (error : Error)
  /-- `fail_from_task`; a send task still holds its `Sender`. -/
  | record (sender : Bool) (error : Error)
  | releaseSender (context : Bool)
  | releaseArc
  deriving DecidableEq

/-- What the source of an upload gave: a byte count and the final-chunk flag. -/
abbrev UploadResult := Result (Nat × Bool)

/-- `upload_read`, `upload_rewind`, their tasks, and `upload_close`. -/
inductive Upload where
  | entered (op : UploadOp)
  | reserve (op : UploadOp)
  | closed (op : UploadOp)
  | poll (op : UploadOp)
  | lock (op : UploadOp) (result : UploadResult)
  | locked (op : UploadOp) (result : UploadResult)
  | fail (op : UploadOp)
  | unlock
  | panicked (op : UploadOp)
  | close
  deriving DecidableEq

/-- Why a `NativeRequest` is dropped: the cleanup task is done, or
`start_request` gives up. -/
inductive Dropper where
  | cleanup
  | failed (error : Error)
  deriving DecidableEq

/-- The cleanup task, and `Drop for NativeRequest`. -/
inductive Cleanup where
  | terminal
  | finished
  | count
  | arm
  | recheck (epoch : Nat)
  | park (epoch : Nat)
  | drop (why : Dropper)
  | gate (why : Dropper)
  | raw (why : Dropper)
  | destroy (why : Dropper)
  | unlock (why : Dropper)
  | buffer (why : Dropper)
  | context (why : Dropper)
  deriving DecidableEq

/-- `execute_request` after `start_request`, and the `Drop` of the `PendingRequest`
or `ResponseBody` it holds; a dropped future returns nothing. -/
inductive Execute where
  | headers
  | body (info : ResponseInfo) (acc : Bytes)
  | finished (info : ResponseInfo) (acc : Bytes)
  | drop (result : Option (Result Response))
  | closeBody (result : Option (Result Response))
  | returned (result : Result Response)
  deriving DecidableEq

/-- Who is outside the crate: Cronet, and the application with its
`RequestHandle`s. -/
inductive Outside where
  | cronet
  | app
  deriving DecidableEq

/-- How far the executor has come with a runnable: not started, in Cronet's own
code, in the extern function before it has its lease. -/
inductive Stage where
  | queued
  | running
  | entered
  deriving DecidableEq

/-- A thread and where it stands. -/
inductive Thread where
  | outside (who : Outside)
  | start (p : Start)
  | shutdown (p : Shutdown)
  | control (p : Control)
  | runnable (stage : Stage) (r : Runnable)
  | callback (p : Callback)
  | read (p : Read)
  | terminal (p : Terminal)
  | task (p : Task)
  | upload (p : Upload)
  | cleanup (p : Cleanup)
  | execute (p : Execute)
  deriving DecidableEq

/-- What the redirect handler does. -/
inductive Decision where
  | follow
  | cancel
  | panicked (message : String)
  deriving DecidableEq

/-- What one poll of the upload source gives. -/
inductive Poll where
  | pending
  | ready (result : UploadResult)
  | panicked
  deriving DecidableEq

/-- What the program itself does not decide. -/
inductive Choice where
  | go
  -- the application
  | cancel
  | status
  | shutdown
  | drop
  | decide (decision : Decision)
  | source (poll : Poll)
  -- the native side
  | submit (r : Runnable)
  | freeBuffer (buffer : BufferId)
  | skip
  | result (code : Option ResultCode)
  /-- An allocation fails, and which; an upload does not fit `int64_t`. -/
  | outOfMemory (kind : String)
  | tooLong
  deriving DecidableEq

end TokioCronet.Request
