import TokioCronet.Request.State

/-!
# The state of a bidirectional stream

What the threads of `bidirectional.rs` share for one stream, and where each of them
stands. The callbacks are made by Cronet itself, one after the other or not; the
adapter is the `BidirectionalStream` the application polls, `&mut`, so it is one
thread; `write_loop` and the other spawned tasks are threads of their own.
-/

namespace TokioCronet.Bidirectional

open Request (Lifetime EngineView Outside)

/-- Bytes of the stream. -/
abbrev Bytes := List UInt8

/-- What a stream is opened with, as far as the adapter uses it; the two flush flags go to
the native stream unread. -/
structure Settings where
  readBufferSize : Nat := 32768
  readChannelCapacity : Nat := 8
  writeCapacity : Nat := 8
  disableAutoFlush : Bool := false
  delayHeadersUntilFlush : Bool := false
  endOfStream : Bool := false
  deriving DecidableEq

/-- `BidirectionalResponseHeaders`. -/
structure Headers where
  headers : List Header
  negotiatedProtocol : String
  deriving DecidableEq

/-- `ReadEvent` -/
inductive ReadEvent where
  | chunk (bytes : Bytes)
  | error (error : Error)
  | eof
  deriving DecidableEq

/-! ## The write side -/

/-- A `Bytes` value: where its contents are, and what they are. -/
structure Buffer where
  pointer : Nat
  bytes : Bytes
  deriving DecidableEq

/-- The sender that a flush is answered through. -/
abbrev Waiter := Nat

/-- The task a poll was made from. -/
abbrev Waker := Nat

/-- `WriteCommand` -/
inductive WriteCommand where
  | data (data : Buffer) (endOfStream : Bool)
  | flush (waiter : Waiter)
  deriving DecidableEq

/-- `InFlightWrite` -/
structure InFlightWrite where
  data : Buffer
  endOfStream : Bool
  deriving DecidableEq

/-- `WriteState`. The map of writes in flight is the list of its entries, in the order
in which they were pushed. -/
structure WriteState where
  queue : List WriteCommand := []
  inFlight : List InFlightWrite := []
  inFlightCount : Nat := 0
  flushWaiters : List Waiter := []
  flushBlocked : Bool := false
  localClosed : Bool := false
  terminal : Option (Result Unit) := none
  deriving DecidableEq

/-- `WriteShared`. `notify` is the permit that `notify_one` leaves and the number of
calls of `notify_waiters`. -/
structure WriteShared where
  state : WriteState := {}
  ready : Bool := false
  permit : Bool := false
  notifyEpoch : Nat := 0
  producerWaker : Option Waker := none
  deriving DecidableEq

/-- The poll of the write side that was last begun: its waker, whether it has returned
`Pending` for lack of room, and whether its waker has been woken since it began. -/
structure Producer where
  waker : Waker := 0
  parked : Bool := false
  woken : Bool := false
  deriving DecidableEq

/-! ## The rest of the stream -/

/-- `BidirectionalControl`; `raw` tells whether the pointer is non-null and `gate`
whether the mutex is locked. -/
structure BidirectionalControl where
  raw : Bool := false
  started : Bool := false
  done : Bool := false
  cancelRequested : Bool := false
  gate : Bool := false
  deriving DecidableEq

/-- `ReadState`, and whether its mutex is locked. -/
structure ReadState where
  inFlight : Bool := false
  eof : Bool := false
  lock : Bool := false
  deriving DecidableEq

/-- `BidirectionalContext`, the channels it sends on, and its strong count. -/
structure BidirectionalContext where
  callbackCount : Nat := 0
  /-- How often `callbacks_idle` was notified. -/
  idleEpoch : Nat := 0
  read : ReadState := {}
  readySender : Bool := true
  ready : Option (Result Unit) := none
  headers : Option (Result Headers) := none
  trailers : Option (Result (List Header)) := none
  terminal : Option (Result Unit) := none
  cleanupSender : Bool := true
  cleanupSignal : Bool := false
  pendingError : Option Error := none
  arcs : Nat := 0
  life : Lifetime := .unborn
  deriving DecidableEq

/-- The bounded channel of read events. -/
structure ReadChannel where
  senders : Nat := 0
  queue : List ReadEvent := []
  receiver : Bool := true
  deriving DecidableEq

/-- What the `BidirectionalStream` keeps for itself. -/
structure Adapter where
  flushReceiver : Option Waiter := none
  shutdownStarted : Bool := false
  localClosed : Bool := false
  readEof : Bool := false
  /-- The next flush sender. -/
  nextWaiter : Waiter := 0
  deriving DecidableEq

/-- A callback of the stream. -/
inductive Callback where
  | streamReady
  | responseHeaders (headers : Headers)
  /-- The content is what the data pointer points to, if anything. -/
  | readCompleted (bytesRead : Int) (content : Option Bytes)
  | writeCompleted (pointer : Nat)
  | responseTrailers (trailers : List Header)
  | succeeded
  | failed (netError : Int)
  | canceled
  deriving DecidableEq

/-- The native stream. -/
structure Native where
  stream : Lifetime := .unborn
  /-- The native start was called and has not failed. -/
  accepting : Bool := false
  /-- Some callback has been made. -/
  called : Bool := false
  /-- The buffers of accepted writes that have not been completed. -/
  outstanding : List Buffer := []
  deriving DecidableEq

/-- A call of the write half of the adapter. -/
inductive PollOp where
  | write
  | flush
  | shutdown
  deriving DecidableEq

/-- What it returns. -/
inductive PollResult where
  | pending
  | ready (count : Nat)
  | brokenPipe
  | failed (error : Error)
  deriving DecidableEq

/-- What an observer of the native calls and of the adapter sees. -/
inductive Event where
  -- calls on the native stream
  | configure
  | start
  | started
  | cancel
  | read
  | write (data : Buffer) (endOfStream : Bool)
  | flush
  | destroy
  -- the write side
  | accepted (data : Buffer) (endOfStream : Bool)
  | answered (waiter : Waiter) (result : Result Unit)
  | finished (result : Result Unit)
  | polled (op : PollOp) (result : PollResult)
  -- the rest
  | callbackBegun (c : Callback)
  | cancelRead (requested : Bool)
  | recorded (error : Error)
  | done
  | chunk (item : Option (Result Bytes))
  deriving DecidableEq

/-- What the threads of one stream share. -/
structure Shared where
  engine : EngineView := {}
  control : BidirectionalControl := {}
  context : BidirectionalContext := {}
  channel : ReadChannel := {}
  write : WriteShared := {}
  producer : Producer := {}
  adapter : Adapter := {}
  native : Native := {}
  trace : List Event := []
  deriving DecidableEq

/-! ## Positions -/

/-- `open`. -/
inductive Open where
  | load
  | admission
  | streamEngine
  | new
  | registerPush
  | registerLoad
  | configure
  | start
  | startReturn
  | storeStarted
  | loadCancel
  | spawn
  | ready
  | close (error : Option Error)
  | returned (result : Result Unit)
  deriving DecidableEq

/-- Who called `BidirectionalControl::cancel`. -/
inductive Canceler where
  | app
  | shutdown
  | registering
  | started
  | leaking
  /-- `CancelOnDrop`, of an `open` that returns an error or whose future is dropped. -/
  | guard (error : Option Error)
  /-- `Drop for BidirectionalStream`. -/
  | adapter
  | writer
  /-- A callback; it may still hold a guard of the read state. -/
  | callback (reading : Bool)
  /-- A spawned task; a send task still holds its `Sender`. -/
  | task (sender : Bool)
  deriving DecidableEq

/-- A use of the native stream under the gate. -/
inductive GatedOp where
  | cancel (who : Canceler)
  | write (data : Buffer) (endOfStream : Bool)
  | flush (waiter : Waiter)
  /-- `start_read`; a send task still holds its `Sender`. -/
  | startRead (sender : Bool)
  deriving DecidableEq

/-- `BidirectionalControl` and `start_read`; each operation locks the gate, reads
`raw` and the flags, and makes its native call. -/
inductive Control where
  | store (who : Canceler)
  | lock (op : GatedOp)
  | raw (op : GatedOp)
  | started (op : GatedOp)
  | done (op : GatedOp)
  | claim (op : GatedOp)
  | call (op : GatedOp)
  | unlock (op : GatedOp) (error : Option Error)
  deriving DecidableEq

/-- Where a failure is recorded by `fail_then_cancel`: in a callback, which may still hold a
guard of the read state, or in a spawned task. -/
inductive Site where
  | callback (reading : Bool)
  | task (sender : Bool)
  deriving DecidableEq

/-- A callback, from its first instruction to the drop of its lease. -/
inductive InCallback where
  | entered (c : Callback)
  | ready
  | readyNotify
  | readySend
  | headers (headers : Headers)
  | spawnRead
  | readCompleted (bytesRead : Int) (content : Option Bytes)
  /-- The length of the buffer is read for the error of a refused completion. -/
  | measure (bytesRead : Int)
  /-- The guard that was taken for it is dropped, after the whole statement. -/
  | unlockRead
  | complete (pointer : Nat)
  | wake
  | trailers (trailers : List Header)
  | leave
  | notify
  deriving DecidableEq

/-- `BidirectionalContext::terminal`. -/
inductive Terminal where
  | first (fallback : Option Error)
  | take (fallback : Option Error)
  | ready (result : Result Unit)
  | headers (result : Result Unit)
  | setHeaders (result : Result Unit)
  | trailers (result : Result Unit)
  | setTrailers (result : Result Unit)
  | watch (result : Result Unit)
  | spawn (result : Result Unit)
  | signal
  deriving DecidableEq

/-- Who called `WriteShared::finish`. -/
inductive Finisher where
  | terminal
  | writer
  deriving DecidableEq

/-- `WriteShared::finish`. -/
inductive Finish where
  | drain (who : Finisher) (result : Result Unit)
  | wake (who : Finisher) (result : Result Unit)
  | notify (who : Finisher) (result : Result Unit)
  deriving DecidableEq

/-- The spawned tasks. -/
inductive Task where
  | send (event : ReadEvent)
  | sendLast (event : ReadEvent)
  | record (site : Site) (error : Error)
  | releaseSender
  | releaseArc
  deriving DecidableEq

/-- `write_loop`; an epoch is the one its `Notified` was created in. -/
inductive Writer where
  | top
  | ready (epoch : Nat)
  | pop (epoch : Nat)
  | check (epoch : Nat)
  | park (epoch : Nat)
  | push (data : Buffer) (endOfStream : Bool)
  | register (waiter : Waiter)
  | refuse (waiter : Waiter) (error : Error)
  deriving DecidableEq

/-- What `enqueue_data` was called for. -/
inductive Producing where
  | write (data : Buffer)
  /-- `poll_shutdown`, with the empty buffer that ends the stream. -/
  | shutdown (data : Buffer)
  deriving DecidableEq

/-- The adapter, idle or inside a poll. -/
inductive Stream where
  | idle
  | enqueue (op : Producing) (waker : Waker)
  | store (op : Producing) (waker : Waker)
  | recheck (op : Producing) (waker : Waker)
  | notify (op : Producing)
  | control (op : PollOp) (waiter : Waiter)
  | notifyControl (op : PollOp) (waiter : Waiter)
  | receive (op : PollOp)
  | drop
  | closed
  deriving DecidableEq

/-- Why a `NativeBidirectionalStream` is dropped: the cleanup task is done, or `open`
gives up. -/
inductive Dropper where
  | cleanup
  | failed (error : Error)
  deriving DecidableEq

/-- The cleanup task, and `Drop for NativeBidirectionalStream`. -/
inductive Cleanup where
  | signal
  | count
  | arm
  | recheck (epoch : Nat)
  | park (epoch : Nat)
  | drop (why : Dropper)
  | gate (why : Dropper)
  | raw (why : Dropper)
  | destroy (why : Dropper)
  | unlock (why : Dropper)
  | context (why : Dropper)
  deriving DecidableEq

/-- A thread and where it stands. -/
inductive Thread where
  | outside (who : Outside)
  | openStream (p : Open)
  | shutdown (p : Request.Shutdown)
  | control (p : Control)
  | callback (p : InCallback)
  | terminal (p : Terminal)
  | finish (p : Finish)
  | task (p : Task)
  | writer (p : Writer)
  | stream (p : Stream)
  | cleanup (p : Cleanup)
  deriving DecidableEq

/-- What the program itself does not decide. -/
inductive Choice where
  | go
  -- the application
  | cancel
  | shutdown
  | drop
  /-- The input, where its copy is put, and the task that polls. -/
  | pollWrite (input : Bytes) (pointer : Nat) (waker : Waker)
  | pollFlush
  /-- Where the empty static buffer is, and the task that polls. -/
  | pollShutdown (pointer : Nat) (waker : Waker)
  | nextChunk
  -- the native side
  | callback (c : Callback)
  | result (code : Option Int)
  | outOfMemory
  deriving DecidableEq

end TokioCronet.Bidirectional
