import TokioCronet.Engine.Machine
import TokioCronet.Request.State
import TokioCronet.Sse.Parser

/-!
# The state of a WebSocket

What the threads of `websocket.rs` and of `cronet_rs_websocket.cc` share for one
socket, over the engine it is opened on. The native object hands its work to the
network thread as tasks, which run in the order of their posting; the callbacks run on
that thread too. Other operations on the engine, other sockets among them, are the
engine's own threads.
-/

namespace TokioCronet.WebSocket

open Request (Lifetime)
open Sse (Str continues)

/-- Bytes of a message. -/
abbrev Bytes := List UInt8

/-! ## Messages -/

/-- `WsMessage` -/
inductive WsMessage where
  | text (text : Str)
  | binary (bytes : Bytes)
  deriving DecidableEq

/-- What goes through the message channel. -/
abbrev Item := Result WsMessage

/-- The bytes that continue a character, and whether all of them were there. -/
def follow : List (UInt8 → Bool) → Bytes → Nat → Nat × Bool
  | [], _, n => (n, true)
  | p :: ps, b :: rest, n => if p b then follow ps rest (n + 1) else (n, false)
  | _ :: _, [], n => (n, false)

/-- The length of the first character, or of the part of one that is there. -/
def firstChar : Bytes → Nat × Bool
  | [] => (0, true)
  | a :: rest =>
    if a < 0x80 then (1, true)
    else if 0xC2 ≤ a && a ≤ 0xDF then follow [continues] rest 1
    else if 0xE0 ≤ a && a ≤ 0xEF then
      let second : UInt8 → Bool := fun b =>
        if a = 0xE0 then 0xA0 ≤ b && b ≤ 0xBF
        else if a = 0xED then 0x80 ≤ b && b ≤ 0x9F else continues b
      follow [second, continues] rest 1
    else if 0xF0 ≤ a && a ≤ 0xF4 then
      let second : UInt8 → Bool := fun b =>
        if a = 0xF0 then 0x90 ≤ b && b ≤ 0xBF
        else if a = 0xF4 then 0x80 ≤ b && b ≤ 0x8F else continues b
      follow [second, continues, continues] rest 1
    else (1, false)

/-- `String::from_utf8_lossy` -/
def lossy : Nat → Bytes → Str
  | 0, _ => []
  | fuel + 1, bytes =>
    match firstChar bytes with
    | (n, true) => bytes.take n ++ lossy fuel (bytes.drop n)
    | (n, false) => [0xEF, 0xBF, 0xBD] ++ lossy fuel (bytes.drop n)

/-- `String::from_utf8_lossy`: what is no character becomes U+FFFD. -/
def fromUtf8Lossy (bytes : Bytes) : Str := lossy bytes.length bytes

example : fromUtf8Lossy [0x61, 0xE2, 0x82, 0x62] = [0x61, 0xEF, 0xBF, 0xBD, 0x62] := by decide

/-- The callbacks, with the strings that the native side passes. -/
inductive Callback where
  | opened (protocol : Option String)
  | message (data : Option Bytes) (binary : Bool)
  | closing
  | closed
  | failure (message : Option String) (netError : Int)
  deriving DecidableEq

/-- The error that `on_failure` reports. -/
def failureError (message : Option String) (netError : Int) : Error :=
  .webSocket (message.getD "WebSocket failed") netError

/-- What a callback puts into the message channel. -/
def Callback.item : Callback → Option Item
  | .message data binary =>
    some (.ok (if binary then .binary (data.getD []) else .text (fromUtf8Lossy (data.getD []))))
  | .failure text netError => some (.error (failureError text netError))
  | _ => none

/-- What it sends to the caller of `open_websocket`. -/
def Callback.answer : Callback → Option (Result String)
  | .opened protocol => some (.ok (protocol.getD ""))
  | .failure text netError => some (.error (failureError text netError))
  | _ => none

/-- What it finishes the context with. -/
def Callback.result : Callback → Option (Result Unit)
  | .closed => some (.ok ())
  | .failure text netError => some (.error (failureError text netError))
  | _ => none

/-! ## Shared state -/

/-- A task on the network thread. -/
inductive NetTask where
  | connect
  | send (payload : Bytes) (binary : Bool)
  | close (code : Nat) (reason : String)
  | destroy
  deriving DecidableEq

/-- `WsControl`; whether the pointer is non-null. -/
structure WsControl where
  native : Bool := false
  deriving DecidableEq

/-- `WsContext`, what its open sender has sent, and its strong count. -/
structure WsContext where
  /-- Whether `open` still holds its sender. -/
  opener : Bool := true
  opened : Option (Result String) := none
  terminal : Option (Result Unit) := none
  /-- Whether the socket's `EngineOperation` is alive. -/
  operation : Bool := false
  arcs : Nat := 0
  life : Lifetime := .unborn
  deriving DecidableEq

/-- The bounded channel of messages. -/
structure Messages where
  senders : Nat := 0
  queue : List Item := []
  receiver : Bool := true
  deriving DecidableEq

/-- `mpsc::channel(32)` -/
def Messages.capacity : Nat := 32

/-- `Cronet_WebSocketImpl`, and the network thread's queue of its tasks. -/
structure Native where
  socket : Lifetime := .unborn
  callbacks : Bool := false
  channel : Bool := false
  /-- The event that `DestroyAndWait` waits for. -/
  destroyed : Bool := false
  tasks : List NetTask := []
  /-- The engine's `CronetContext` is gone. -/
  stopped : Bool := false
  deriving DecidableEq

/-- What an observer of the native calls, the callbacks and the application sees. -/
inductive Event where
  | created
  | posted (task : NetTask)
  | ran (task : NetTask)
  | callbackBegun (c : Callback)
  /-- A callback gives an item to the channel. -/
  | delivered (item : Item)
  | finished (result : Result Unit)
  /-- `next_message` returns. -/
  | received (item : Option Item)
  /-- The cancel loop of a shutdown is done. -/
  | cancelled
  /-- `open_websocket` returns. -/
  | returned (result : Result Unit)
  | destroyed
  /-- A method of the socket, or its destruction, uses an engine that was destroyed. -/
  | reached
  deriving DecidableEq

/-- What the threads of one socket share. -/
structure Shared where
  engine : Engine.Shared := {}
  /-- The list of controls: its mutex, and whether this socket's is in it. -/
  controlsLock : Bool := false
  registered : Bool := false
  control : WsControl := {}
  context : WsContext := {}
  messages : Messages := {}
  native : Native := {}
  trace : List Event := []
  deriving DecidableEq

/-! ## Positions -/

/-- Who begins an operation on the engine. -/
inductive User where
  | socket
  | other
  deriving DecidableEq

/-- `open_websocket`, once it has its operation. -/
inductive Open where
  | create
  | setNative
  | registerPush
  | registerLoad
  | setCallbacks
  | connect
  | await
  deriving DecidableEq

/-- Who calls `WsControl::cancel`. -/
inductive Canceler where
  | shutdown
  | registering
  deriving DecidableEq

/-- `WsControl::cancel` and where it stands. -/
inductive Cancel where
  | load (who : Canceler)
  | close (who : Canceler)
  deriving DecidableEq

/-- Why the native socket is destroyed: `register` saw the shutdown, `open_websocket`
failed later, or the `WebSocket` is dropped. -/
inductive Destroyer where
  | refused
  | failed (error : Error)
  | handle
  deriving DecidableEq

/-- `clear_native` and `Cronet_RS_WebSocket_Destroy`, which waits for the network thread
and does so again in the destructor. -/
inductive Destroy where
  | clear (who : Destroyer)
  | post (who : Destroyer) (again : Bool)
  | wait (who : Destroyer) (again : Bool)
  | delete (who : Destroyer)
  deriving DecidableEq

/-- The `WebSocket`, idle or inside a call. -/
inductive Socket where
  | idle
  | send (payload : Bytes) (binary : Bool)
  | close (code : Nat) (reason : String)
  deriving DecidableEq

/-- Where a callback returns to. The network thread may reset the channel then. -/
inductive Caller where
  | network (reset : Bool)
  | connect
  | socket
  deriving DecidableEq

/-- A callback. -/
inductive InCallback where
  | entered (c : Callback)
  | answers (c : Callback)
  | sends (c : Callback)
  | terminal (c : Callback)
  | operation
  | release
  | returns
  deriving DecidableEq

/-- A thread and where it stands. -/
inductive Thread where
  | engine (t : Engine.Thread User)
  | opening (p : Open)
  /-- `EngineInner::shutdown`, before it looks at the list of controls. -/
  | snapshot
  | cancel (p : Cancel)
  | socket (p : Socket)
  | destroy (p : Destroy)
  | network
  | callback (p : InCallback) (caller : Caller)
  /-- An `Arc<WsContext>` that is being dropped. -/
  | releaseArc
  deriving DecidableEq

/-- What the program itself does not decide. -/
inductive Choice where
  | go
  | engine (ch : Engine.Choice User)
  | outOfMemory
  | invalid (field : String)
  -- the application
  | next
  | send (payload : Bytes) (binary : Bool)
  | close (code : Nat) (reason : String)
  | cancel
  | drop
  -- the network thread: its next task, a connect that it refuses, an event of the channel
  | run
  | refuse (message : String) (netError : Int)
  | event (c : Callback)
  deriving DecidableEq

end TokioCronet.WebSocket
