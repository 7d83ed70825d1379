import TokioCronet.WebSocket.Machine

/-!
# The moves of a WebSocket's program

`step` read as a relation: one constructor for each thing that a step can do, with the
state and the threads it leads to. The invariants of the later modules go through these.
-/

namespace TokioCronet.WebSocket

/-- A native method that a `WebSocket` calls posts this task. -/
def Socket.task : Socket → Option NetTask
  | .idle => none
  | .send payload binary => some (.send payload binary)
  | .close code reason => some (.close code reason)

/-- What the network thread can report instead of running its first task. -/
inductive Fault : NetTask → Callback → Prop
  | send {payload : Bytes} {binary : Bool} : Fault (.send payload binary) notConnected
  | connect {text : String} {netError : Int} : Fault .connect (.failure (some text) netError)

/-- The tasks after which channel and event are as before. -/
def NetTask.keeps : NetTask → Bool
  | .send _ _ | .close _ _ => true
  | _ => false

/-- What a thread in a given position can do to the state, and what it becomes. -/
inductive Move (s : Shared) : Thread → Shared → List Thread → Prop
  -- the engine
  | engine {t : Engine.Thread User} {ch : Engine.Choice User} {e : Engine.Shared}
      {ts : List (Engine.Thread User)} :
      Engine.step s.engine t ch = some (e, ts) → t ≠ .shutdownUnlock → t ≠ .admitted .socket →
      (t = .handle → ch ≠ .beginOperation .socket) →
      Move s (.engine t) { s with engine := e } (ts.map .engine)
  | stops {r : Engine.Runner} {code : Option ResultCode} {e : Engine.Shared}
      {ts : List (Engine.Thread User)} :
      Engine.step s.engine (.nativeStop r) (.result code) = some (e, ts) →
      Move s (.engine (.nativeStop r))
        { s with engine := e, native.stopped := s.native.stopped || (check code == .ok ()) }
        (ts.map .engine)
  | admits : Move s (.engine (.admitted .socket)) { s with context.operation := true }
      [.opening .create]
  | unlocks : Move s (.engine .shutdownUnlock) { s with engine.nativeLock := false } [.snapshot]
  -- `open_websocket`
  | creates : Move s (.opening .create)
      { s with context.arcs := 1, context.life := .live, messages.senders := 1,
               native.socket := .live, trace := s.trace ++ [.created] } [.opening .setNative]
  | fails {e : Error} : Move s (.opening .create) (s.openFailed e)
      (s.operationDrop ++ [.engine .releaseArc])
  | publishes : Move s (.opening .setNative) { s with control.native := true }
      [.opening .registerPush]
  | lists : s.controlsLock = false → Move s (.opening .registerPush)
      { s with controlsLock := true, registered := true } [.opening .registerLoad]
  | refuses : s.engine.closing = true → Move s (.opening .registerLoad)
      { s with controlsLock := false } [.cancel (.load .registering)]
  | accepts : s.engine.closing = false → Move s (.opening .registerLoad)
      { s with controlsLock := false } [.opening .setCallbacks]
  | attaches : Move s (.opening .setCallbacks)
      { s with context.arcs := s.context.arcs + 1, native.callbacks := true } [.opening .connect]
  | connects : s.native.stopped = false → Move s (.opening .connect) (s.reach.post .connect)
      [.opening .await]
  | unstarted : s.native.stopped = true → Move s (.opening .connect) (s.reach.notified notStarted)
      [.callback (s.notify notStarted) .connect]
  | opens {protocol : String} : s.context.opened = some (.ok protocol) →
      Move s (.opening .await) { s with trace := s.trace ++ [.returned (.ok ())] }
        [.socket .idle, .engine .releaseArc]
  | rejects {e : Error} :
      s.context.opened = some (.error e) ∨ s.context.opened = none ∧ s.context.life = .gone →
      Move s (.opening .await) s [.destroy (.clear (.failed e))]
  | leaks : Move s (.opening .await) { s with messages.receiver := false, messages.queue := [] }
      [.releaseArc, .engine .releaseArc]
  -- the cancellation of a shutdown, and of `register`
  | finds : s.registered = true → s.context.life = .live →
      Move s .snapshot s [.cancel (.load .shutdown)]
  | misses : ¬ (s.registered = true ∧ s.context.life = .live) →
      Move s .snapshot { s with trace := s.trace ++ [.cancelled] } [.engine .shutdownCell]
  | loads {who : Canceler} : s.control.native = true →
      Move s (.cancel (.load who)) s [.cancel (.close who)]
  | loadsNull : s.control.native = false → Move s (.cancel (.load .shutdown))
      { s with trace := s.trace ++ [.cancelled] } [.engine .shutdownCell]
  | declines : s.control.native = false → Move s (.cancel (.load .registering)) s
      [.destroy (.clear .refused)]
  | closes : Move s (.cancel (.close .shutdown))
      { s.post (.close 1001 "") with trace := (s.post (.close 1001 "")).trace ++ [.cancelled] }
      [.engine .shutdownCell]
  | closesRefused : Move s (.cancel (.close .registering)) (s.post (.close 1001 ""))
      [.destroy (.clear .refused)]
  -- the `WebSocket`
  | receives {item : Item} {queue : List Item} : s.messages.queue = item :: queue →
      Move s (.socket .idle)
        { s with messages.queue := queue, trace := s.trace ++ [.received (some item)] }
        [.socket .idle]
  | ends : s.messages.queue = [] → s.messages.senders = 0 →
      Move s (.socket .idle) { s with trace := s.trace ++ [.received none] } [.socket .idle]
  | begins {p : Socket} : Move s (.socket .idle) s [.socket p]
  | drops : Move s (.socket .idle) s [.destroy (.clear .handle)]
  | sendFails {p : Socket} : s.native.stopped = true →
      Move s (.socket p) (s.reach.notified notStarted) [.callback (s.notify notStarted) .socket]
  | calls {p : Socket} {task : NetTask} : p.task = some task →
      Move s (.socket p) (s.reach.post task) [.socket .idle]
  -- the destruction
  | clears {who : Destroyer} : Move s (.destroy (.clear who)) { s with control.native := false }
      [.destroy (.post who false)]
  | resets {who : Destroyer} {again : Bool} : s.native.stopped = true →
      Move s (.destroy (.post who again)) { s.reach with native.channel := false }
        [who.next again]
  | asks {who : Destroyer} {again : Bool} : s.native.stopped = false →
      Move s (.destroy (.post who again))
        ({ s.reach with native.destroyed := false }.post .destroy) [.destroy (.wait who again)]
  | waits {who : Destroyer} {again : Bool} : s.native.destroyed = true →
      Move s (.destroy (.wait who again)) s [who.next again]
  | deletes {who : Destroyer} : Move s (.destroy (.delete who))
      { s with native.socket := .gone, messages.receiver := false, messages.queue := [],
               trace := s.trace ++ .destroyed :: who.returns } who.releases
  -- the network thread
  | runsConnect {tasks : List NetTask} : s.native.tasks = .connect :: tasks →
      Move s .network { s.ran .connect tasks with native.channel := true } [.network]
  | runsDestroy {tasks : List NetTask} : s.native.tasks = .destroy :: tasks →
      Move s .network
        { s.ran .destroy tasks with native.channel := false, native.destroyed := true } [.network]
  | runs {task : NetTask} {tasks : List NetTask} : s.native.tasks = task :: tasks →
      task.keeps = true →
      Move s .network (s.ran task tasks) [.network]
  | faults {task : NetTask} {tasks : List NetTask} {c : Callback} :
      s.native.tasks = task :: tasks → Fault task c →
      Move s .network
        ((s.ran task tasks).notified c)
        [.callback (s.notify c) (.network false)]
  | event {c : Callback} : s.native.channel = true →
      Move s .network (s.notified c) [.callback (s.notify c) (.network c.resets)]
  -- a callback
  | ignores {caller : Caller} : Move s (.callback (.entered .closing) caller) s
      [.callback .returns caller]
  | enters {c : Callback} {caller : Caller} : c ≠ .closing →
      Move s (.callback (.entered c) caller) { s with context.arcs := s.context.arcs + 1 }
        [.callback c.body caller]
  | answers {c : Callback} {result : Result String} {p : InCallback} {caller : Caller} :
      c.answer = some result →
      p = (if c.item.isSome then .sends c else .release) →
      Move s (.callback (.answers c) caller) (s.answer result) [.callback p caller]
  | delivers {c : Callback} {item : Item} {p : InCallback} {caller : Caller} :
      c.item = some item →
      p = (if c.result.isSome then .terminal c else .release) →
      Move s (.callback (.sends c) caller) (s.trySend item) [.callback p caller]
  | finishes {c : Callback} {result : Result Unit} {caller : Caller} : c.result = some result →
      Move s (.callback (.terminal c) caller) (s.finish result) [.callback .operation caller]
  | takes {caller : Caller} : Move s (.callback .operation caller) s.takeOperation
      (s.operationDrop ++ [.callback .release caller])
  | lets {caller : Caller} : Move s (.callback .release caller) s.releaseArc.1
      (s.releaseArc.2 ++ [.callback .returns caller])
  | returnsNetwork {reset : Bool} : Move s (.callback .returns (.network reset))
      { s with native.channel := s.native.channel && !reset } [.network]
  | returnsConnect : Move s (.callback .returns .connect) s [.opening .await]
  | returnsSocket : Move s (.callback .returns .socket) s [.socket .idle]
  | gives : Move s .releaseArc s.releaseArc.1 s.releaseArc.2

variable {s s' : Shared} {t : Thread} {ts : List Thread} {ch : Choice}

/-! ## Every step is a move -/

theorem engineStep_move {t : Engine.Thread User} {ch : Engine.Choice User}
    (h : engineStep s t ch = some (s', ts)) : Move s (.engine t) s' ts := by
  revert h
  fun_cases engineStep s t ch <;> intro h
  case case1 => cases h
  case case2 =>
    cases h
    exact .admits
  case case3 => cases h
  case case4 =>
    obtain ⟨p, hp, hs⟩ := Option.map_eq_some_iff.mp h
    cases hs
    cases ch <;> cases hp
    exact .unlocks
  case case5 =>
    obtain ⟨p, hp, hs⟩ := Option.map_eq_some_iff.mp h
    cases hs
    exact .stops hp
  case case6 =>
    obtain ⟨p, hp, hs⟩ := Option.map_eq_some_iff.mp h
    cases hs
    exact .engine hp ‹_› (by grind) (by grind)

theorem openStep_move {p : Open} (h : openStep s p ch = some (s', ts)) :
    Move s (.opening p) s' ts := by
  revert h
  fun_cases openStep s p ch <;> intro h <;> cases h
  · exact .creates
  · exact .fails
  · exact .fails
  · exact .publishes
  · exact .lists (Bool.eq_false_iff.mpr ‹_›)
  · exact .refuses ‹_›
  · exact .accepts (Bool.eq_false_iff.mpr ‹_›)
  · exact .attaches
  · exact .unstarted ‹_›
  · exact .connects (Bool.eq_false_iff.mpr ‹_›)
  · exact .opens ‹_›
  · exact .rejects (.inl ‹_›)
  · exact .rejects (.inr ⟨‹_›, ‹_›⟩)
  · exact .leaks

theorem cancelStep_move {p : Cancel} (h : cancelStep s p ch = some (s', ts)) :
    Move s (.cancel p) s' ts := by
  revert h
  fun_cases cancelStep s p ch <;> intro h
  case case1 => cases h; exact .loads ‹_›
  case case2 who hn =>
    cases who <;> cases h
    · exact .loadsNull (by simpa using hn)
    · exact .declines (by simpa using hn)
  case case3 who =>
    cases who <;> cases h
    · exact .closes
    · exact .closesRefused
  case case4 => cases h

theorem snapshotStep_move (h : snapshotStep s ch = some (s', ts)) : Move s .snapshot s' ts := by
  revert h
  fun_cases snapshotStep s ch <;> intro h <;> cases h
  · exact .finds (by grind) (by grind)
  · exact .misses ‹_›

theorem socketStep_move {p : Socket} (h : socketStep s p ch = some (s', ts)) :
    Move s (.socket p) s' ts := by
  revert h
  fun_cases socketStep s p ch <;> intro h <;> cases h
  · exact .receives ‹_›
  · exact .ends ‹_› ‹_›
  · exact .begins
  · exact .begins
  · exact .begins
  · exact .begins
  · exact .begins
  · exact .drops
  · exact .sendFails ‹_›
  · exact .calls rfl
  · exact .calls rfl

theorem destroyStep_move {p : Destroy} (h : destroyStep s p ch = some (s', ts)) :
    Move s (.destroy p) s' ts := by
  revert h
  fun_cases destroyStep s p ch <;> intro h <;> cases h
  · exact .clears
  · exact .resets ‹_›
  · exact .asks (Bool.eq_false_iff.mpr ‹_›)
  · exact .waits ‹_›
  · exact .deletes

theorem networkStep_move (h : networkStep s ch = some (s', ts)) : Move s .network s' ts := by
  revert h
  fun_cases networkStep s ch <;> intro h <;> cases h
  · exact .runsConnect ‹_›
  · exact .runs ‹_› rfl
  · exact .faults ‹_› .send
  · exact .runs ‹_› rfl
  · exact .runsDestroy ‹_›
  · exact .faults ‹_› .connect
  · exact .event ‹_›

theorem callbackStep_move {p : InCallback} {caller : Caller}
    (h : callbackStep s caller p ch = some (s', ts)) : Move s (.callback p caller) s' ts := by
  revert h
  fun_cases callbackStep s caller p ch <;> intro h <;> cases h
  · exact .ignores
  · exact .enters ‹_›
  · exact .answers rfl rfl
  · exact .answers rfl rfl
  · exact .delivers rfl rfl
  · exact .delivers rfl rfl
  · exact .finishes ‹_›
  · exact .takes
  · exact .lets
  · exact .returnsNetwork
  · exact .returnsConnect
  · exact .returnsSocket

/-- **Every step of the program is one of the moves.** -/
theorem step_move (h : step s t ch = some (s', ts)) : Move s t s' ts := by
  revert h
  fun_cases step s t ch <;> intro h
  · exact engineStep_move h
  · cases h
  · exact openStep_move h
  · exact snapshotStep_move h
  · exact cancelStep_move h
  · exact socketStep_move h
  · exact destroyStep_move h
  · exact networkStep_move h
  · exact callbackStep_move h
  · have heq : s.releaseArc = (s', ts) := Option.some.inj h
    have hs : s' = s.releaseArc.1 := by rw [heq]
    have hts : ts = s.releaseArc.2 := by rw [heq]
    rw [hs, hts]
    exact .gives
  · cases h

/-! ## What a step records -/

/-- The task that a position posts. -/
def Thread.task : Thread → Option NetTask
  | .opening .connect => some .connect
  | .cancel (.close _) => some (.close 1001 "")
  | .socket p => p.task
  | .destroy (.post _ _) => some .destroy
  | _ => none

/-- The events that a position can add to the trace. -/
def Thread.Records : Thread → Event → Prop
  | .opening .create, .created => True
  | .opening .create, .returned result => ∃ e, result = .error e
  | .opening .await, .returned result => result = .ok ()
  | .destroy (.delete _), .destroyed => True
  | .destroy (.delete who), .returned result => .returned result ∈ who.returns
  | .snapshot, .cancelled | .cancel (.load .shutdown), .cancelled
  | .cancel (.close .shutdown), .cancelled => True
  | .callback (.sends c) _, .delivered item => c.item = some item
  | .callback (.terminal c) _, .finished result => c.result = some result
  | .socket .idle, .received _ => True
  | .network, .ran _ => True
  | t, .posted task => t.task = some task
  | _, .reached | _, .callbackBegun _ => True
  | _, _ => False

theorem mem_reach {e : Event} (h : e ∈ s.reach.trace) :
    e ∈ s.trace ∨ e = .reached ∧ s.engineGone = true := by
  change e ∈ s.trace ++ _ at h
  rcases List.mem_append.mp h with h | h
  · exact .inl h
  · split at h
    · exact .inr ⟨List.mem_singleton.mp h, ‹_›⟩
    · cases h

theorem mem_post {e : Event} {task : NetTask} (h : e ∈ (s.post task).trace) :
    e ∈ s.trace ∨ e = .posted task := by
  rcases List.mem_append.mp h with h | h
  · exact .inl h
  · obtain ⟨a, ha, rfl⟩ := List.mem_map.mp h
    unfold Shared.posts at ha
    split at ha
    · cases ha
    · rw [List.mem_singleton.mp ha]
      exact .inr rfl

theorem mem_notified {e : Event} {c : Callback} (h : e ∈ (s.notified c).trace) :
    e ∈ s.trace ∨ e = .callbackBegun c := by
  change e ∈ s.trace ++ _ at h
  rcases List.mem_append.mp h with h | h
  · exact .inl h
  · split at h
    · exact .inr (List.mem_singleton.mp h)
    · cases h

theorem mem_append_one {tr : List Event} {e a : Event} (h : e ∈ tr ++ [a]) :
    e ∈ tr ∨ e = a := by
  rcases List.mem_append.mp h with h | h
  · exact .inl h
  · exact .inr (List.mem_singleton.mp h)

theorem releaseArc_trace : s.releaseArc.1.trace = s.trace := by
  unfold Shared.releaseArc
  split
  · split <;> rfl
  · rfl

/-- **A step adds only what its position can record.** -/
theorem Move.records (hm : Move s t s' ts) {e : Event} (h : e ∈ s'.trace) :
    e ∈ s.trace ∨ t.Records e := by
  induction hm with
  | creates | fails | opens | misses | loadsNull | receives | ends | delivers | finishes =>
    rcases mem_append_one h with h | rfl
    · exact .inl h
    · exact .inr (by first | trivial | assumption | exact ⟨_, rfl⟩)
  | connects =>
    rcases mem_post h with h | rfl
    · rcases mem_reach h with h | ⟨rfl, -⟩
      · exact .inl h
      · exact .inr trivial
    · exact .inr rfl
  | @calls p task htask =>
    rcases mem_post h with h | rfl
    · rcases mem_reach h with h | ⟨rfl, -⟩
      · exact .inl h
      · exact .inr (by cases p <;> trivial)
    · exact .inr (by cases p <;> exact htask)
  | asks =>
    rcases mem_post h with h | rfl
    · rcases mem_reach (s := s) h with h | ⟨rfl, -⟩
      · exact .inl h
      · exact .inr trivial
    · exact .inr rfl
  | resets =>
    rcases mem_reach h with h | ⟨rfl, -⟩
    · exact .inl h
    · exact .inr trivial
  | unstarted =>
    rcases mem_notified h with h | rfl
    · rcases mem_reach h with h | ⟨rfl, -⟩
      · exact .inl h
      · exact .inr trivial
    · exact .inr trivial
  | @sendFails p =>
    rcases mem_notified h with h | rfl
    · rcases mem_reach h with h | ⟨rfl, -⟩
      · exact .inl h
      · exact .inr (by cases p <;> trivial)
    · exact .inr (by cases p <;> trivial)
  | closesRefused =>
    rcases mem_post h with h | rfl
    · exact .inl h
    · exact .inr rfl
  | closes =>
    rcases mem_append_one h with h | rfl
    · rcases mem_post h with h | rfl
      · exact .inl h
      · exact .inr rfl
    · exact .inr trivial
  | @deletes who =>
    rcases List.mem_append.mp h with h | h
    · exact .inl h
    · rcases List.mem_cons.mp h with rfl | h
      · exact .inr trivial
      · right
        cases who with
        | handle => cases h
        | refused | failed =>
          obtain rfl := List.mem_singleton.mp h
          exact List.mem_singleton_self _
  | runsConnect | runsDestroy | runs =>
    rcases mem_append_one h with h | rfl
    · exact .inl h
    · exact .inr trivial
  | faults =>
    rcases mem_notified h with h | rfl
    · rcases mem_append_one h with h | rfl
      · exact .inl h
      · exact .inr trivial
    · exact .inr trivial
  | event =>
    rcases mem_notified h with h | rfl
    · exact .inl h
    · exact .inr trivial
  | lets | gives =>
    rw [releaseArc_trace] at h
    exact .inl h
  | _ => exact .inl h

end TokioCronet.WebSocket
