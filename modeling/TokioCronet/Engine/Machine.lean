import TokioCronet.Lib.Pool
import TokioCronet.Engine.Finished

/-!
# The engine's lifetime

`EngineInner` of `engine.rs` as a shared state and the threads that run over it:
calls of `begin_operation`, live operations and the start of the requests that
own them, native request-finished callbacks, `Engine::shutdown` futures, the last
`Drop`, and the runs of `NativeEngine::shutdown` these lead to. Every atomic
access, lock acquisition and lock release is a step of its own.

A future is dropped only where it is suspended, so only the threads that stand at
an `.await` accept `Choice.drop`.
-/

namespace TokioCronet.Engine

/-- What an observer of the native engine and of the callers sees. -/
inductive Event where
  /-- `closing.store(true)`. -/
  | closing
  /-- `active.fetch_add(1)`: a `begin_operation` has succeeded. -/
  | admitted
  /-- `NativeEngine::shutdown` has started. -/
  | nativeShutdown
  /-- `Cronet_Engine_Destroy` was called. -/
  | destroyed
  /-- `NativeEngine::shutdown` has run to completion. -/
  | nativeDone (result : Result Unit)
  /-- An `Engine::shutdown` call returned. -/
  | returned (result : Result Unit)
  deriving DecidableEq

/-- `EngineInner`. -/
structure Shared where
  /-- Whether `native : Mutex<Option<NativeEngine>>` holds an engine. -/
  native : Bool := true
  /-- Whether that mutex is locked. -/
  nativeLock : Bool := false
  closing : Bool := false
  active : Nat := 0
  /-- How often `notify_waiters` was called on `idle`. -/
  idleEpoch : Nat := 0
  finished : FinishedContext := {}
  /-- The value of the `OnceCell`, and whether its permit is taken. -/
  shutdownResult : Option (Result Unit) := none
  initializing : Bool := false
  /-- What the blocking task left for its `JoinHandle`. -/
  joined : Option (Result Unit) := none
  /-- Strong count of `Arc<EngineInner>`. -/
  arcs : Nat := 1
  trace : List Event := []
  deriving DecidableEq

/-- Who runs `NativeEngine::shutdown`: the blocking task of a shutdown future, or
the thread that `Drop for EngineInner` spawns. -/
inductive Runner where
  | blocking
  | dropped
  deriving DecidableEq

/-- A thread and where it stands. `κ` tells apart the users of `begin_operation`. -/
inductive Thread (κ : Type) where
  /-- A live `Engine` handle in the application's hands. -/
  | handle
  /-- The native side, which delivers request-finished callbacks. -/
  | cronet
  -- `begin_operation`
  | beginLoad (k : κ)
  | beginLock (k : κ)
  | beginCheck (k : κ)
  | beginNative (k : κ)
  | beginCount (k : κ)
  | beginUnlock (k : κ)
  | beginFail
  -- the caller that owns a fresh `EngineOperation`
  | admitted (k : κ)
  | registered (annotations : List Annotation)
  | begun (annotations : List Annotation)
  | aborting
  /-- An `EngineOperation` that outlives the call which made it. -/
  | operation
  | dropOperation
  | notifyIdle
  -- `Arc<EngineInner>`
  | releaseArc
  | dropInner
  | waitBlocking
  -- `EngineFinishedContext::on_finished`
  | finishing
  -- `EngineInner::shutdown`
  | shutdownLock
  | shutdownStore
  | shutdownUnlock
  | shutdownCell
  | waitActive
  | armActive
  | recheckActive (epoch : Nat)
  | parkActive (epoch : Nat)
  | waitIdle
  | checkIdle (epoch : Nat)
  | parkIdle (epoch : Nat)
  | takeLock
  | takeNative
  | takeUnlock (native : Bool)
  | joinNative
  | setResult (result : Result Unit)
  | abandonInit
  | shutdownReturn
  -- `NativeEngine::shutdown`
  | nativeShutdown (r : Runner)
  | nativeStop (r : Runner)
  | nativeDestroy (r : Runner)
  | nativeDone (r : Runner) (result : Result Unit)
  deriving DecidableEq

/-- What the program itself does not decide. -/
inductive Choice (κ : Type) where
  | go
  /-- The application: clone or drop a handle, or call through it. -/
  | clone
  | drop
  | beginOperation (k : κ)
  | shutdown
  /-- The owner of an operation: start a request, give up, or let it live on. -/
  | beginRequest (annotations : List Annotation)
  | fail
  | keep
  /-- The native side: report a finished request, or the result of a call. -/
  | finished (pointers : List Nat)
  | result (code : Option ResultCode)
  /-- The runtime drops a blocking task that has not run, or no thread can be
  spawned for it. -/
  | lost (message : String)
  deriving DecidableEq

variable {κ : Type}

/-- One step of one thread. -/
def step (s : Shared) : Thread κ → Choice κ → Option (Shared × List (Thread κ))
  -- the application uses a handle; a call works on its own reference
  | .handle, .clone => some ({ s with arcs := s.arcs + 1 }, [.handle, .handle])
  | .handle, .drop => some (s, [.releaseArc])
  | .handle, .beginOperation k =>
    some ({ s with arcs := s.arcs + 1 }, [.handle, .beginLoad k])
  | .handle, .shutdown =>
    some ({ s with arcs := s.arcs + 1 }, [.handle, .shutdownLock])
  -- `begin_operation`: `closing` is read outside and again inside the lock
  | .beginLoad k, .go => some (s, if s.closing then [.releaseArc] else [.beginLock k])
  | .beginLock k, .go =>
    if s.nativeLock then none else some ({ s with nativeLock := true }, [.beginCheck k])
  | .beginCheck k, .go => some (s, if s.closing then [.beginFail] else [.beginNative k])
  | .beginNative k, .go => some (s, if s.native then [.beginCount k] else [.beginFail])
  | .beginCount k, .go =>
    some ({ s with active := s.active + 1, arcs := s.arcs + 1,
                   trace := s.trace ++ [.admitted] }, [.beginUnlock k])
  | .beginUnlock k, .go => some ({ s with nativeLock := false }, [.admitted k])
  | .beginFail, .go => some ({ s with nativeLock := false }, [.releaseArc])
  -- `start_request` between `begin_operation` and its return
  | .admitted _, .beginRequest annotations =>
    some ({ s with finished := s.finished.register annotations }, [.registered annotations])
  | .admitted _, .keep => some (s, [.operation, .releaseArc])
  | .admitted _, .fail => some (s, [.dropOperation, .releaseArc])
  | .registered annotations, .go =>
    some ({ s with finished := s.finished.countOne }, [.begun annotations])
  | .begun _, .keep => some (s, [.operation, .releaseArc])
  | .begun annotations, .fail =>
    some ({ s with finished := s.finished.unregister annotations }, [.aborting])
  | .aborting, .go =>
    some ({ s with finished := s.finished.finishOne }, [.dropOperation, .releaseArc])
  -- `Drop for EngineOperation`, then for its `Arc<EngineInner>`
  | .operation, .go => some (s, [.dropOperation])
  | .dropOperation, .go =>
    some ({ s with active := s.active - 1 },
      if s.active = 1 then [.notifyIdle] else [.releaseArc])
  | .notifyIdle, .go => some ({ s with idleEpoch := s.idleEpoch + 1 }, [.releaseArc])
  | .releaseArc, .go =>
    some ({ s with arcs := s.arcs - 1 }, if s.arcs = 1 then [.dropInner] else [])
  -- `Drop for EngineInner`
  | .dropInner, .go =>
    some ({ s with native := false }, if s.native then [.waitBlocking] else [])
  | .waitBlocking, .go =>
    if s.finished.pending = 0 then some (s, [.nativeShutdown .dropped]) else none
  | .waitBlocking, .lost _ => some (s, [])
  -- `on_engine_request_finished`
  | .cronet, .finished pointers =>
    match s.finished.take pointers with
    | (finished, values, true) =>
      some ({ s with finished := finished.send (copyAnnotations pointers values) },
        [.cronet, .finishing])
    | (finished, _, false) => some ({ s with finished := finished }, [.cronet])
  | .finishing, .go => some ({ s with finished := s.finished.finishOne }, [])
  -- `EngineInner::shutdown` up to the `OnceCell`
  | .shutdownLock, .go =>
    if s.nativeLock then none else some ({ s with nativeLock := true }, [.shutdownStore])
  | .shutdownStore, .go =>
    some ({ s with closing := true, trace := s.trace ++ [.closing] }, [.shutdownUnlock])
  | .shutdownUnlock, .go => some ({ s with nativeLock := false }, [.shutdownCell])
  | .shutdownCell, .go =>
    match s.shutdownResult with
    | some _ => some (s, [.shutdownReturn])
    | none =>
      if s.initializing then none else some ({ s with initializing := true }, [.waitActive])
  | .shutdownCell, .drop => some (s, [.releaseArc])
  -- the initialiser: wait for `active`, then for `pending`
  | .waitActive, .go => some (s, if s.active = 0 then [.waitIdle] else [.armActive])
  | .armActive, .go => some (s, [.recheckActive s.idleEpoch])
  | .recheckActive epoch, .go =>
    some (s, if s.active = 0 then [.waitActive] else [.parkActive epoch])
  | .parkActive epoch, .go => if s.idleEpoch = epoch then none else some (s, [.waitActive])
  | .parkActive _, .drop => some (s, [.abandonInit])
  | .waitIdle, .go => some (s, [.checkIdle s.finished.epoch])
  | .checkIdle epoch, .go =>
    some (s, if s.finished.pending = 0 then [.takeLock] else [.parkIdle epoch])
  | .parkIdle epoch, .go => if s.finished.epoch = epoch then none else some (s, [.waitIdle])
  | .parkIdle _, .drop => some (s, [.abandonInit])
  -- `self.native.lock().take()`
  | .takeLock, .go =>
    if s.nativeLock then none else some ({ s with nativeLock := true }, [.takeNative])
  | .takeNative, .go => some ({ s with native := false }, [.takeUnlock s.native])
  | .takeUnlock true, .go =>
    some ({ s with nativeLock := false }, [.joinNative, .nativeShutdown .blocking])
  | .takeUnlock false, .go => some ({ s with nativeLock := false }, [.setResult (.ok ())])
  | .joinNative, .go =>
    match s.joined with
    | some result => some (s, [.setResult result])
    | none => none
  | .joinNative, .drop => some (s, [.abandonInit])
  | .setResult result, .go =>
    some ({ s with shutdownResult := some result, initializing := false }, [.shutdownReturn])
  | .abandonInit, .go => some ({ s with initializing := false }, [.releaseArc])
  | .shutdownReturn, .go =>
    match s.shutdownResult with
    | some result => some ({ s with trace := s.trace ++ [.returned result] }, [.releaseArc])
    | none => none
  -- `NativeEngine::shutdown`: remove the listener, stop, destroy
  | .nativeShutdown r, .go =>
    some ({ s with trace := s.trace ++ [.nativeShutdown] }, [.nativeStop r])
  | .nativeShutdown .blocking, .lost message =>
    some ({ s with joined := some (.error (.tokioTask message)) }, [])
  | .nativeStop r, .result code =>
    match check code with
    | .ok () => some (s, [.nativeDestroy r])
    | .error e => some (s, [.nativeDone r (.error e)])
  | .nativeDestroy r, .go =>
    some ({ s with trace := s.trace ++ [.destroyed] }, [.nativeDone r (.ok ())])
  | .nativeDone .blocking result, .go =>
    some ({ s with joined := some result, trace := s.trace ++ [.nativeDone result] }, [])
  | .nativeDone .dropped result, .go =>
    some ({ s with trace := s.trace ++ [.nativeDone result] }, [])
  | _, _ => none

/-- One handle on a fresh engine. -/
def start : Pool.Listed Shared (Thread κ) := ⟨{}, [.handle, .cronet]⟩

end TokioCronet.Engine
