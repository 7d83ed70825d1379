import TokioCronet.Bidirectional.Machine

/-!
# What a step does to the write side

The write side of a stream is a small part of it: the command queue and the map of
writes in flight under one mutex, the slot of the producer's waker, and what has gone
over to the native stream. Most steps leave it alone. The others are listed here once,
with what they find and what they leave, and every property of the write side is
proved over that list.
-/

namespace TokioCronet.Bidirectional

open Pool

variable {cfg : Settings} {s s' : Shared} {t u : Thread} {ch : Choice} {ts : List Thread}

/-- The data commands that `enqueue_data` has accepted. -/
def accepted (tr : List Event) : List InFlightWrite :=
  tr.filterMap fun e =>
    match e with
    | .accepted data eos => some { data := data, endOfStream := eos }
    | _ => none

/-- The data commands that were handed to the native write. -/
def written (tr : List Event) : List InFlightWrite :=
  tr.filterMap fun e =>
    match e with
    | .write data eos => some { data := data, endOfStream := eos }
    | _ => none

/-- The flush senders that have been answered. -/
def answered (tr : List Event) : List Waiter :=
  tr.filterMap fun e =>
    match e with
    | .answered waiter _ => some waiter
    | _ => none

/-- The part of the state that the write side is about. -/
structure Side where
  state : WriteState
  waker : Option Waker
  producer : Producer
  outstanding : List Buffer
  receiver : Option Waiter
  accepted : List InFlightWrite
  written : List InFlightWrite
  answered : List Waiter

/-- What the write side looks at of the state. -/
def Shared.side (s : Shared) : Side where
  state := s.write.state
  waker := s.write.producerWaker
  producer := s.producer
  outstanding := s.native.outstanding
  receiver := s.adapter.flushReceiver
  accepted := accepted s.trace
  written := written s.trace
  answered := answered s.trace

/-! ## What a thread is to the write side -/

/-- How far the write loop is with a command. -/
inductive Stage where
  | unspawned
  | idle
  /-- The command is out of the queue and not yet in flight. -/
  | holds (write : InFlightWrite)
  /-- It is in flight and not yet written. -/
  | writes (write : InFlightWrite)
  | stopped
  deriving DecidableEq

/-- Where the write loop stands while an operation of its own runs. -/
def GatedOp.stage (op : GatedOp) : Option Stage :=
  match op with
  | .write data eos => some (.writes { data := data, endOfStream := eos })
  | .flush _ => some .idle
  | .cancel .writer => some .stopped
  | .cancel .started => some .unspawned
  | _ => none

/-- Where the write loop stands, if the thread is the write loop. -/
def Thread.stage : Thread → Option Stage
  | .openStream .ready | .openStream (.close _) | .openStream (.returned _) => none
  | .openStream _ => some .unspawned
  | .control (.store who) => (GatedOp.cancel who).stage
  | .control (.unlock (.write _ _) none) => some .idle
  | .control (.unlock (.write _ _) (some _)) => some .stopped
  | .control (.lock op) | .control (.raw op) | .control (.started op) | .control (.done op)
  | .control (.claim op) | .control (.call op) | .control (.unlock op _) => op.stage
  | .finish (.drain .writer _) | .finish (.wake .writer _) | .finish (.notify .writer _) =>
    some .stopped
  | .writer (.push data eos) => some (.holds { data := data, endOfStream := eos })
  | .writer (.refuse _ _) => some .stopped
  | .writer _ => some .idle
  | _ => none

/-- The write loop, or the call of `open` that will spawn it. -/
def Thread.loops (t : Thread) : Nat :=
  match t.stage with
  | some _ => 1
  | none => 0

/-- A command in the hand of the write loop takes up room. -/
def Thread.hand (t : Thread) : Nat :=
  match t.stage with
  | some (.holds _) => 1
  | _ => 0

/-- `wake_producer` comes next. -/
def Thread.wakes : Thread → Nat
  | .callback .wake | .finish (.wake _ _) => 1
  | _ => 0

/-- A completion of the write at an address on its way to `complete`. -/
def Thread.completes (pointer : Nat) : Thread → Nat
  | .callback (.entered (.writeCompleted p)) | .callback (.complete p) =>
    if p = pointer then 1 else 0
  | _ => 0

/-- `cancel` inside `open` and inside the drop of the adapter returns to them. -/
def GatedOp.adapts (op : GatedOp) : Nat :=
  match op with
  | .cancel .started | .cancel .adapter => 1
  | _ => 0

/-- The adapter, or the call of `open` that will return it. -/
def Thread.adapts : Thread → Nat
  | .openStream (.close _) | .openStream (.returned _) => 0
  | .openStream _ => 1
  | .control (.store who) => (GatedOp.cancel who).adapts
  | .control (.lock op) | .control (.raw op) | .control (.started op) | .control (.done op)
  | .control (.claim op) | .control (.call op) | .control (.unlock op _) => op.adapts
  | .stream _ => 1
  | _ => 0

/-- What the adapter is about to do in `enqueue_data`, and with which waker. -/
def Thread.polling : Thread → Option (Bool × Waker)
  | .stream (.enqueue _ waker) | .stream (.store _ waker) => some (false, waker)
  | .stream (.recheck _ waker) => some (true, waker)
  | _ => none

/-- A flush on its way through the write loop. -/
def GatedOp.flushing (waiter : Waiter) (op : GatedOp) : Nat :=
  match op with
  | .flush w => if w = waiter then 1 else 0
  | _ => 0

/-- The write loop has the sender of a flush in its hand. -/
def Thread.flushing (waiter : Waiter) : Thread → Nat
  | .control (.store who) => (GatedOp.cancel who).flushing waiter
  | .control (.lock op) | .control (.raw op) | .control (.started op) | .control (.done op)
  | .control (.claim op) | .control (.call op) | .control (.unlock op _) => op.flushing waiter
  | .writer (.register w) | .writer (.refuse w _) => if w = waiter then 1 else 0
  | _ => 0

/-- The adapter has enqueued a flush and is about to wait for its answer. -/
def Thread.awaits : Thread → Option Waiter
  | .stream (.notifyControl _ waiter) => some waiter
  | _ => none

/-- How the write loop moves on while it leaves the write side alone. -/
inductive Stage.Moves : Stage → Stage → Prop
  | stays {g : Stage} : Stage.Moves g g
  | spawned : Stage.Moves .unspawned .idle
  | stops {g : Stage} : Stage.Moves g .stopped

/-- The threads that take a thread's place take over what it was to the write side;
`n` calls of `wake_producer` are made. -/
structure Keeps (n : Nat) (t : Thread) (ts : List Thread) : Prop where
  /-- The write loop moves as it may. -/
  stage : ∀ u ∈ ts, ∀ g', u.stage = some g' → ∃ g, t.stage = some g ∧ g.Moves g'
  /-- There is no second write loop. -/
  loops : (ts.map Thread.loops).sum ≤ t.loops
  /-- What the write loop has in hand stays with it. -/
  hand : (ts.map Thread.hand).sum = t.hand
  /-- A wake-up that is owed is owed, or made. -/
  wakes : (ts.map Thread.wakes).sum + n = t.wakes
  /-- A completion that is to be counted stays so. -/
  completes : ∀ p, (ts.map (Thread.completes p)).sum = t.completes p
  /-- There is no second adapter. -/
  adapts : (ts.map Thread.adapts).sum ≤ t.adapts
  /-- A flush that is on its way to the queue stays so. -/
  flushing : ∀ w, (ts.map (Thread.flushing w)).sum = t.flushing w
  /-- No thread comes to wait for an answer. -/
  awaits : ∀ u ∈ ts, u.awaits = none
  /-- A poll goes on with its own waker. -/
  polling : ∀ u ∈ ts, ∀ stored waker, u.polling = some (stored, waker) →
    stored = false ∧ ∃ b, t.polling = some (b, waker)

/-! ## The list -/

/-- `wake_producer`, as the write side sees it. -/
def Side.wake (s : Side) : Side :=
  match s.waker with
  | some waker =>
    { s with waker := none, producer.woken := s.producer.woken || waker == s.producer.waker }
  | none => s

/-- What a step of a thread does to the write side. -/
inductive SideStep (cfg : Settings) (s : Side) (t : Thread) (ts : List Thread) : Side → Prop
  | quiet : Keeps 0 t ts → SideStep cfg s t ts s
  | wake : Keeps 1 t ts → SideStep cfg s t ts s.wake
  | popData {epoch : Nat} {data : Buffer} {eos : Bool} {queue : List WriteCommand} :
      t = .writer (.pop epoch) → s.state.terminal = none →
      s.state.queue = .data data eos :: queue → ts = [.writer (.push data eos)] →
      SideStep cfg s t ts { s with state.queue := queue }
  | popFlush {epoch : Nat} {waiter : Waiter} {queue : List WriteCommand} :
      t = .writer (.pop epoch) → s.state.terminal = none →
      s.state.queue = .flush waiter :: queue → ts = [.control (.lock (.flush waiter))] →
      SideStep cfg s t ts { s with state.queue := queue }
  | push {data : Buffer} {eos : Bool} :
      t = .writer (.push data eos) → ts = [.control (.lock (.write data eos))] →
      SideStep cfg s t ts { s with
        state.inFlight := s.state.inFlight ++ [{ data := data, endOfStream := eos }],
        state.inFlightCount := s.state.inFlightCount + 1 }
  | write {data : Buffer} {eos : Bool} :
      t = .control (.call (.write data eos)) →
      ts = [.control (.unlock (.write data eos) none)] →
      SideStep cfg s t ts { s with
        outstanding := s.outstanding ++ [data],
        written := s.written ++ [{ data := data, endOfStream := eos }] }
  | writeFails {data : Buffer} {eos : Bool} {e : Error} :
      t = .control (.call (.write data eos)) →
      ts = [.control (.unlock (.write data eos) (some e))] →
      SideStep cfg s t ts { s with
        written := s.written ++ [{ data := data, endOfStream := eos }] }
  | register {waiter : Waiter} :
      t = .writer (.register waiter) → s.state.inFlightCount ≠ 0 → ts = [.writer .top] →
      SideStep cfg s t ts { s with
        state.flushBlocked := true,
        state.flushWaiters := s.state.flushWaiters ++ [waiter] }
  | answers {waiter : Waiter} :
      t = .writer (.register waiter) ∧ ts = [.writer .top] ∨
        (∃ e, t = .writer (.refuse waiter e) ∧ ts = [.finish (.drain .writer (.error e))]) →
      SideStep cfg s t ts { s with answered := s.answered ++ [waiter] }
  | calls {pointer : Nat} :
      t = .outside .cronet → s.outstanding.any (·.pointer == pointer) = true →
      ts = [.outside .cronet, .callback (.entered (.writeCompleted pointer))] →
      SideStep cfg s t ts { s with outstanding := s.outstanding.eraseP (·.pointer == pointer) }
  | complete {pointer : Nat} {blocked : Bool} {waiters answered : List Waiter} :
      t = .callback (.complete pointer) → ts = [.callback .wake] →
      s.state.flushWaiters = waiters ++ answered →
      SideStep cfg s t ts { s with
        state := { s.state.remove pointer with flushBlocked := blocked, flushWaiters := waiters },
        answered := s.answered ++ answered }
  | drain {who : Finisher} {result : Result Unit} :
      t = .finish (.drain who result) → ts = [.finish (.wake who result)] →
      SideStep cfg s t ts { s with
        state := { s.state with terminal := some result, flushWaiters := [], queue := [] },
        answered := s.answered ++ (s.state.flushWaiters ++ s.state.queuedFlushes) }
  | begins {op : Producing} {waker : Waker} :
      t = .stream .idle → ts = [.stream (.enqueue op waker)] →
      SideStep cfg s t ts { s with producer := { waker := waker } }
  | accepts {op : Producing} {waker : Waker} :
      t = .stream (.enqueue op waker) → s.state.localClosed = false →
      ts = [.stream (.notify op)] →
      SideStep cfg s t ts { s with
        state.queue := s.state.queue ++ [.data op.data op.endOfStream],
        state.localClosed := op.endOfStream,
        accepted := s.accepted ++ [{ data := op.data, endOfStream := op.endOfStream }] }
  | stores {op : Producing} {waker : Waker} :
      t = .stream (.store op waker) → ts = [.stream (.recheck op waker)] →
      SideStep cfg s t ts { s with waker := some waker }
  | parks {op : Producing} {waker : Waker} :
      t = .stream (.recheck op waker) → s.state.full cfg = true → ts = [.stream .idle] →
      SideStep cfg s t ts { s with producer.parked := true }
  | control {op : PollOp} {waiter : Waiter} :
      t = .stream (.control op waiter) → ts = [.stream (.notifyControl op waiter)] →
      (∀ e, s.state.terminal ≠ some (.error e)) →
      SideStep cfg s t ts { s with state.queue := s.state.queue ++ [.flush waiter] }
  | notifies {op : PollOp} {waiter : Waiter} :
      t = .stream (.notifyControl op waiter) → ts = [.stream (.receive op)] →
      SideStep cfg s t ts { s with receiver := some waiter }
  | receives {op : PollOp} :
      t = .stream (.receive op) → ts = [.stream .idle] →
      SideStep cfg s t ts { s with receiver := none }

/-! ## Every step is on the list -/

/-- A thread that is nothing to the write side. -/
structure Thread.Plain (t : Thread) : Prop where
  /-- It is not the write loop. -/
  stage : t.stage = none
  /-- It owes no wake-up. -/
  wakes : t.wakes = 0
  /-- It counts no completion. -/
  completes : ∀ p, t.completes p = 0
  /-- It is not the adapter. -/
  adapts : t.adapts = 0
  /-- It enqueues no flush. -/
  flushing : ∀ w, t.flushing w = 0
  /-- It waits for no answer. -/
  awaits : t.awaits = none
  /-- It polls nothing. -/
  polling : t.polling = none

theorem Thread.Plain.loops (h : t.Plain) : t.loops = 0 := by
  rw [Thread.loops, h.stage]

theorem Thread.Plain.hand (h : t.Plain) : t.hand = 0 := by
  rw [Thread.hand, h.stage]

theorem sum_plain (w : Thread → Nat) (hw : ∀ {u : Thread}, u.Plain → w u = 0)
    (h : ∀ u ∈ ts, u.Plain) : (ts.map w).sum = 0 := by
  refine List.sum_eq_zero ?_
  intro n hn
  obtain ⟨u, hu, rfl⟩ := List.mem_map.mp hn
  exact hw (h u hu)

/-- A thread takes one step further and brings plain threads to life. -/
theorem Keeps.spawns {n : Nat} {us : List Thread}
    (stage : ∀ g', u.stage = some g' → ∃ g, t.stage = some g ∧ g.Moves g')
    (hand : u.hand = t.hand) (wakes : u.wakes + n = t.wakes)
    (completes : ∀ p, u.completes p = t.completes p) (adapts : u.adapts ≤ t.adapts)
    (flushing : ∀ w, u.flushing w = t.flushing w) (awaits : u.awaits = none)
    (polling : u.polling = none) (plain : ∀ v ∈ us, v.Plain) : Keeps n t (u :: us) := by
  have hloops : u.loops ≤ t.loops := by
    rw [Thread.loops]
    split
    · rename_i g' hg'
      obtain ⟨g, hg, -⟩ := stage g' hg'
      rw [Thread.loops, hg]
    · exact Nat.zero_le _
  refine ⟨?_, ?_, ?_, ?_, ?_, ?_, ?_, ?_, ?_⟩
  · intro v hv g' hg'
    rcases List.mem_cons.mp hv with rfl | hv
    · exact stage g' hg'
    · rw [(plain v hv).stage] at hg'
      cases hg'
  · rw [List.map_cons, List.sum_cons, sum_plain _ Thread.Plain.loops plain]
    exact hloops
  · rw [List.map_cons, List.sum_cons, sum_plain _ Thread.Plain.hand plain]
    exact hand
  · rw [List.map_cons, List.sum_cons, sum_plain _ Thread.Plain.wakes plain]
    exact wakes
  · intro p
    rw [List.map_cons, List.sum_cons, sum_plain _ (fun h => h.completes p) plain]
    exact completes p
  · rw [List.map_cons, List.sum_cons, sum_plain _ Thread.Plain.adapts plain]
    exact adapts
  · intro w
    rw [List.map_cons, List.sum_cons, sum_plain _ (fun h => h.flushing w) plain]
    exact flushing w
  · exact List.forall_mem_cons.mpr ⟨awaits, fun v hv => (plain v hv).awaits⟩
  · intro v hv stored waker h
    rcases List.mem_cons.mp hv with rfl | hv
    · rw [polling] at h
      cases h
    · rw [(plain v hv).polling] at h
      cases h

/-- A thread takes one step further and stays what it is to the write side. -/
theorem Keeps.one {n : Nat} (stage : u.stage = t.stage) (wakes : u.wakes + n = t.wakes)
    (completes : ∀ p, u.completes p = t.completes p) (adapts : u.adapts = t.adapts)
    (flushing : ∀ w, u.flushing w = t.flushing w) (awaits : u.awaits = none)
    (polling : u.polling = none) : Keeps n t [u] := by
  refine Keeps.spawns ?_ ?_ wakes completes adapts.le flushing awaits polling (by simp)
  · intro g' hg'
    exact ⟨g', stage ▸ hg', .stays⟩
  · rw [Thread.hand, Thread.hand, stage]

/-- A thread leaves the write side alone for good. -/
theorem Keeps.ends (hand : t.hand = 0) (wakes : t.wakes = 0) (completes : ∀ p, t.completes p = 0)
    (flushing : ∀ w, t.flushing w = 0) (plain : ∀ v ∈ ts, v.Plain) : Keeps 0 t ts := by
  refine ⟨?_, ?_, ?_, ?_, ?_, ?_, ?_, ?_, ?_⟩
  · intro v hv g' hg'
    rw [(plain v hv).stage] at hg'
    cases hg'
  · rw [sum_plain _ Thread.Plain.loops plain]
    exact Nat.zero_le _
  · rw [sum_plain _ Thread.Plain.hand plain, hand]
  · rw [sum_plain _ Thread.Plain.wakes plain, wakes]
  · intro p
    rw [sum_plain _ (fun h => h.completes p) plain, completes p]
  · rw [sum_plain _ Thread.Plain.adapts plain]
    exact Nat.zero_le _
  · intro w
    rw [sum_plain _ (fun h => h.flushing w) plain, flushing w]
  · exact fun v hv => (plain v hv).awaits
  · intro v hv stored waker h
    rw [(plain v hv).polling] at h
    cases h

@[simp] theorem accepted_append (l l' : List Event) :
    accepted (l ++ l') = accepted l ++ accepted l' := List.filterMap_append

@[simp] theorem written_append (l l' : List Event) :
    written (l ++ l') = written l ++ written l' := List.filterMap_append

@[simp] theorem accepted_answers (waiters : List Waiter) (result : Result Unit) :
    accepted (waiters.map fun waiter => .answered waiter result) = [] := by
  rw [accepted, List.filterMap_map]
  exact List.filterMap_eq_nil_iff.mpr fun _ _ => rfl

@[simp] theorem written_answers (waiters : List Waiter) (result : Result Unit) :
    written (waiters.map fun waiter => .answered waiter result) = [] := by
  rw [written, List.filterMap_map]
  exact List.filterMap_eq_nil_iff.mpr fun _ _ => rfl

@[simp] theorem answered_append (l l' : List Event) :
    answered (l ++ l') = answered l ++ answered l' := List.filterMap_append

@[simp] theorem answered_answers (waiters : List Waiter) (result : Result Unit) :
    answered (waiters.map fun waiter => .answered waiter result) = waiters := by
  rw [answered, List.filterMap_map]
  exact List.filterMap_some

theorem SideStep.of_side {x : Side} (hs : s'.side = x) (h : SideStep cfg s.side t ts x) :
    SideStep cfg s.side t ts s'.side := by
  rw [hs]
  exact h

theorem SideStep.silent (hs : s'.side = s.side) (k : Keeps 0 t ts) :
    SideStep cfg s.side t ts s'.side := .of_side hs (.quiet k)

/-- An event that is no accepted command, no native write and no answer to a flush. -/
def Aside (e : Event) : Prop := accepted [e] = [] ∧ written [e] = [] ∧ answered [e] = []

theorem side_trace {e : Event} (hs : { s with trace := [] }.side = { s' with trace := [] }.side)
    (ht : s'.trace = s.trace ++ [e]) (he : Aside e) : s'.side = s.side := by
  have ha : accepted s'.trace = accepted s.trace := by
    rw [ht, accepted_append, he.1, List.append_nil]
  have hw : written s'.trace = written s.trace := by
    rw [ht, written_append, he.2.1, List.append_nil]
  have hf : answered s'.trace = answered s.trace := by
    rw [ht, answered_append, he.2.2, List.append_nil]
  simp only [Shared.side, Side.mk.injEq] at hs ⊢
  exact ⟨hs.1.symm, hs.2.1.symm, hs.2.2.1.symm, hs.2.2.2.1.symm, hs.2.2.2.2.1.symm, ha, hw, hf⟩

theorem plain_one (h : u.Plain) : ∀ v ∈ [u], v.Plain :=
  List.forall_mem_singleton.mpr h

theorem plain_two {w : Thread} (h : u.Plain) (h' : w.Plain) : ∀ v ∈ [u, w], v.Plain :=
  List.forall_mem_cons.mpr ⟨h, plain_one h'⟩

/-- `open` leaves the write loop and the stream behind. -/
theorem spawn_keeps :
    Keeps 0 (.openStream .spawn) [.writer .top, .cleanup .signal, .openStream .ready] := by
  refine ⟨?_, le_rfl, rfl, rfl, fun _ => rfl, le_rfl, fun _ => rfl, ?_, ?_⟩
  · intro u hu g' hg'
    refine ⟨.unspawned, rfl, ?_⟩
    simp only [List.mem_cons, List.not_mem_nil, or_false] at hu
    rcases hu with rfl | rfl | rfl <;> cases hg'
    exact .spawned
  · intro u hu
    simp only [List.mem_cons, List.not_mem_nil, or_false] at hu
    rcases hu with rfl | rfl | rfl <;> rfl
  · intro u hu stored waker h
    simp only [List.mem_cons, List.not_mem_nil, or_false] at hu
    rcases hu with rfl | rfl | rfl <;> cases h

theorem ready_keeps {result : Result Unit} :
    Keeps 0 (.openStream .ready)
      [.openStream (.returned result), .stream .idle, .task .releaseArc] := by
  refine ⟨?_, le_rfl, rfl, rfl, fun _ => rfl, le_rfl, fun _ => rfl, ?_, ?_⟩
  · intro u hu g' hg'
    simp only [List.mem_cons, List.not_mem_nil, or_false] at hu
    rcases hu with rfl | rfl | rfl <;> cases hg'
  · intro u hu
    simp only [List.mem_cons, List.not_mem_nil, or_false] at hu
    rcases hu with rfl | rfl | rfl <;> rfl
  · intro u hu stored waker h
    simp only [List.mem_cons, List.not_mem_nil, or_false] at hu
    rcases hu with rfl | rfl | rfl <;> cases h

theorem open_side {p : Open} (h : openStep cfg s p ch = some (s', ts)) :
    SideStep cfg s.side (.openStream p) ts s'.side := by
  revert h
  fun_cases openStep cfg s p ch <;> first | exact of_none | apply of_some
  all_goals refine .silent ?_ ?_
  all_goals first
    | rfl
    | exact side_trace rfl rfl ⟨rfl, rfl, rfl⟩
    | exact .one rfl rfl (fun _ => rfl) rfl (fun _ => rfl) rfl rfl
    | exact .ends rfl rfl (fun _ => rfl) (fun _ => rfl)
        (plain_one ⟨rfl, rfl, fun _ => rfl, rfl, fun _ => rfl, rfl, rfl⟩)
    | exact .ends rfl rfl (fun _ => rfl) (fun _ => rfl)
        (plain_two ⟨rfl, rfl, fun _ => rfl, rfl, fun _ => rfl, rfl, rfl⟩
          ⟨rfl, rfl, fun _ => rfl, rfl, fun _ => rfl, rfl, rfl⟩)
    | exact spawn_keeps
    | exact ready_keeps

theorem shutdown_side {p : Request.Shutdown} (h : shutdownStep s p ch = some (s', ts)) :
    SideStep cfg s.side (.shutdown p) ts s'.side := by
  revert h
  fun_cases shutdownStep s p ch <;> first | exact of_none | apply of_some
  all_goals exact .silent rfl (.one rfl rfl (fun _ => rfl) rfl (fun _ => rfl) rfl rfl)

theorem terminal_side {p : Terminal} (h : terminalStep s p ch = some (s', ts)) :
    SideStep cfg s.side (.terminal p) ts s'.side := by
  revert h
  fun_cases terminalStep s p ch <;> first | exact of_none | apply of_some
  all_goals refine .silent ?_ ?_
  all_goals first
    | rfl
    | exact side_trace rfl rfl ⟨rfl, rfl, rfl⟩
    | exact .one rfl rfl (fun _ => rfl) rfl (fun _ => rfl) rfl rfl
    | exact .ends rfl rfl (fun _ => rfl) (fun _ => rfl)
        (plain_two ⟨rfl, rfl, fun _ => rfl, rfl, fun _ => rfl, rfl, rfl⟩
          ⟨rfl, rfl, fun _ => rfl, rfl, fun _ => rfl, rfl, rfl⟩)

theorem side_releaseArc : s.releaseArc.side = s.side := by
  unfold Shared.releaseArc
  split_ifs <;> rfl

theorem task_side {p : Task} (h : taskStep cfg s p ch = some (s', ts)) :
    SideStep cfg s.side (.task p) ts s'.side := by
  revert h
  fun_cases taskStep cfg s p ch <;> first | exact of_none | apply of_some
  all_goals refine .silent ?_ ?_
  all_goals first
    | rfl
    | exact side_trace rfl rfl ⟨rfl, rfl, rfl⟩
    | exact side_releaseArc
    | exact .one rfl rfl (fun _ => rfl) rfl (fun _ => rfl) rfl rfl
    | exact .ends rfl rfl (fun _ => rfl) (fun _ => rfl) (List.forall_mem_nil _)

theorem cleanup_side {p : Cleanup} (h : cleanupStep s p ch = some (s', ts)) :
    SideStep cfg s.side (.cleanup p) ts s'.side := by
  revert h
  fun_cases cleanupStep s p ch <;> first | exact of_none | apply of_some
  all_goals refine .silent ?_ ?_
  all_goals first
    | rfl
    | exact side_trace rfl rfl ⟨rfl, rfl, rfl⟩
    | exact side_releaseArc
    | exact .one rfl rfl (fun _ => rfl) rfl (fun _ => rfl) rfl rfl

/-- A native write that was not made stops the write loop. -/
theorem unlock_keeps {op : GatedOp} {e : Option Error} (stage : t.stage = op.stage)
    (wakes : t.wakes = 0) (completes : ∀ p, t.completes p = 0) (adapts : t.adapts = op.adapts)
    (flushing : ∀ w, t.flushing w = op.flushing w)
    (hop : ∀ data eos, op = .write data eos → e.isSome) :
    Keeps 0 t [.control (.unlock op e)] := by
  refine .spawns ?_ ?_ wakes.symm (fun p => (completes p).symm) adapts.symm.le
    (fun w => (flushing w).symm) rfl rfl (List.forall_mem_nil _)
  · intro g' hg'
    rw [stage]
    cases op with
    | write data eos =>
      obtain ⟨e, rfl⟩ := Option.isSome_iff_exists.mp (hop data eos rfl)
      cases hg'
      exact ⟨_, rfl, .stops⟩
    | _ => exact ⟨g', hg', .stays⟩
  · rw [Thread.hand, Thread.hand, stage]
    cases op with
    | write data eos =>
      obtain ⟨e, rfl⟩ := Option.isSome_iff_exists.mp (hop data eos rfl)
      rfl
    | _ => rfl

theorem refused_isSome {op : GatedOp} (data : Buffer) (eos : Bool) (h : op = .write data eos) :
    op.refused.isSome := by
  rw [h]
  rfl

theorem after_keeps {op : GatedOp} {e : Option Error} :
    Keeps 0 (.control (.unlock op e)) (op.after e) := by
  cases op with
  | cancel who =>
    cases who with
    | app | writer => exact .ends rfl rfl (fun _ => rfl) (fun _ => rfl) (List.forall_mem_nil _)
    | task sender => cases sender <;> exact .one rfl rfl (fun _ => rfl) rfl (fun _ => rfl) rfl rfl
    | callback reading =>
      cases reading <;> exact .one rfl rfl (fun _ => rfl) rfl (fun _ => rfl) rfl rfl
    | _ => exact .one rfl rfl (fun _ => rfl) rfl (fun _ => rfl) rfl rfl
  | write data eos => cases e <;> exact .one rfl rfl (fun _ => rfl) rfl (fun _ => rfl) rfl rfl
  | flush waiter =>
    cases e with
    | none => exact .one rfl rfl (fun _ => rfl) rfl (fun _ => rfl) rfl rfl
    | some e =>
      refine .spawns ?_ rfl rfl (fun _ => rfl) le_rfl (fun _ => rfl) rfl rfl
        (List.forall_mem_nil _)
      intro g' hg'
      cases hg'
      exact ⟨_, rfl, .stops⟩
  | startRead sender =>
    cases e <;> cases sender <;> exact .one rfl rfl (fun _ => rfl) rfl (fun _ => rfl) rfl rfl

/-- A step that adds to the trace. -/
theorem side_extend {state : Shared} {x : Side} {tr : List Event}
    (ht : state.trace = s.trace ++ tr) (hs : state.write.state = x.state)
    (hw : state.write.producerWaker = x.waker) (hp : state.producer = x.producer)
    (ho : state.native.outstanding = x.outstanding) (hr : state.adapter.flushReceiver = x.receiver)
    (accepted_eq : accepted s.trace ++ accepted tr = x.accepted)
    (written_eq : written s.trace ++ written tr = x.written)
    (answered_eq : answered s.trace ++ answered tr = x.answered) : state.side = x := by
  rw [Shared.side, ht, accepted_append, written_append, answered_append, accepted_eq, written_eq,
    answered_eq, hs, hw, hp, ho, hr]

theorem control_side {p : Control} (h : controlStep s p ch = some (s', ts)) :
    SideStep cfg s.side (.control p) ts s'.side := by
  revert h
  fun_cases controlStep s p ch <;> first | exact of_none | apply of_some
  case case21 data eos =>
    refine .of_side ?_ (.write rfl rfl)
    exact side_extend rfl rfl rfl rfl rfl rfl (List.append_nil _) rfl (List.append_nil _)
  case case22 data eos code =>
    refine .of_side ?_ (.writeFails rfl rfl)
    exact side_extend rfl rfl rfl rfl rfl rfl (List.append_nil _) rfl (List.append_nil _)
  all_goals refine .silent ?_ ?_
  all_goals first
    | rfl
    | exact side_trace rfl rfl ⟨rfl, rfl, rfl⟩
    | exact after_keeps
    | exact .one rfl rfl (fun _ => rfl) rfl (fun _ => rfl) rfl rfl
    | exact unlock_keeps rfl rfl (fun _ => rfl) rfl (fun _ => rfl) refused_isSome

theorem body_keeps {c : Callback} : Keeps 0 (.callback (.entered c)) [c.body] := by
  cases c <;> exact .one rfl rfl (fun _ => rfl) rfl (fun _ => rfl) rfl rfl

theorem side_wake : s.wake.side = s.side.wake := by
  unfold Shared.wake Side.wake
  split <;> rename_i hw
  · rw [show s.side.waker = some _ from hw]
    rfl
  · rw [show s.side.waker = none from hw]

theorem remove_flushWaiters {w : WriteState} {pointer : Nat} :
    (w.remove pointer).flushWaiters = w.flushWaiters := by
  unfold WriteState.remove
  split <;> rfl

theorem callback_side {p : InCallback} (h : callbackStep cfg s p ch = some (s', ts)) :
    SideStep cfg s.side (.callback p) ts s'.side := by
  revert h
  fun_cases callbackStep cfg s p ch <;> first | exact of_none | apply of_some
  case case16 pointer w hw =>
    refine .of_side ?_ (@SideStep.complete _ _ _ _ pointer false [] w.flushWaiters rfl rfl
      remove_flushWaiters.symm)
    exact side_extend rfl rfl rfl rfl rfl rfl
      ((congrArg _ (accepted_answers _ _)).trans (List.append_nil _))
      ((congrArg _ (written_answers _ _)).trans (List.append_nil _))
      (congrArg _ (answered_answers _ _))
  case case17 pointer w hw =>
    refine .of_side ?_ (@SideStep.complete _ _ _ _ pointer w.flushBlocked w.flushWaiters [] rfl rfl
      (remove_flushWaiters.symm.trans (List.append_nil _).symm))
    exact side_extend (List.append_nil _).symm rfl rfl rfl rfl rfl (List.append_nil _)
      (List.append_nil _) rfl
  case case18 =>
    rw [side_wake]
    exact .wake (.one rfl rfl (fun _ => rfl) rfl (fun _ => rfl) rfl rfl)
  all_goals refine .silent ?_ ?_
  all_goals first
    | rfl
    | exact side_trace rfl rfl ⟨rfl, rfl, rfl⟩
    | exact body_keeps
    | exact .one rfl rfl (fun _ => rfl) rfl (fun _ => rfl) rfl rfl
    | exact .ends rfl rfl (fun _ => rfl) (fun _ => rfl)
        (plain_two ⟨rfl, rfl, fun _ => rfl, rfl, fun _ => rfl, rfl, rfl⟩
          ⟨rfl, rfl, fun _ => rfl, rfl, fun _ => rfl, rfl, rfl⟩)

theorem finish_side {p : Finish} (h : finishStep s p ch = some (s', ts)) :
    SideStep cfg s.side (.finish p) ts s'.side := by
  revert h
  fun_cases finishStep s p ch <;> first | exact of_none | apply of_some
  case case1 who result w answered =>
    have ht : answered.trace ++ [.finished result] = s.trace ++
        ((w.flushWaiters ++ w.queuedFlushes).map (fun waiter => .answered waiter result) ++
          [.finished result]) := List.append_assoc _ _ _
    refine .of_side ?_ (.drain rfl rfl)
    refine side_extend ht rfl rfl rfl rfl rfl ?_ ?_ ?_
    · rw [accepted_append, accepted_answers]
      exact List.append_nil _
    · rw [written_append, written_answers]
      exact List.append_nil _
    · rw [answered_append, answered_answers]
      exact congrArg _ (List.append_nil _)
  case case2 who result =>
    rw [side_wake]
    refine .wake ?_
    cases who <;> exact .one rfl rfl (fun _ => rfl) rfl (fun _ => rfl) rfl rfl
  case case3 who result =>
    refine .silent rfl ?_
    cases who <;> exact .one rfl rfl (fun _ => rfl) rfl (fun _ => rfl) rfl rfl

theorem writer_side {p : Writer} (h : writerStep s p ch = some (s', ts)) :
    SideStep cfg s.side (.writer p) ts s'.side := by
  revert h
  fun_cases writerStep s p ch <;> first | exact of_none | apply of_some
  case case6 epoch hr data eos queue hq =>
    rw [Bool.or_eq_true, not_or, Bool.not_eq_true, Option.isSome_eq_false_iff,
      Option.isNone_iff_eq_none] at hr
    exact .popData rfl hr.1 hq rfl
  case case7 epoch hr waiter queue hq =>
    rw [Bool.or_eq_true, not_or, Bool.not_eq_true, Option.isSome_eq_false_iff,
      Option.isNone_iff_eq_none] at hr
    exact .popFlush rfl hr.1 hq rfl
  case case13 data eos => exact .push rfl rfl
  case case14 waiter hc =>
    refine .of_side ?_ (.answers (.inl ⟨rfl, rfl⟩))
    exact side_extend rfl rfl rfl rfl rfl rfl (List.append_nil _) (List.append_nil _) rfl
  case case15 waiter hc => exact .register rfl hc rfl
  case case16 waiter e =>
    refine .of_side ?_ (.answers (.inr ⟨e, rfl, rfl⟩))
    exact side_extend rfl rfl rfl rfl rfl rfl (List.append_nil _) (List.append_nil _) rfl
  all_goals refine .silent ?_ ?_
  all_goals first
    | rfl
    | exact side_trace rfl rfl ⟨rfl, rfl, rfl⟩
    | exact .one rfl rfl (fun _ => rfl) rfl (fun _ => rfl) rfl rfl
    | exact .ends rfl rfl (fun _ => rfl) (fun _ => rfl) (List.forall_mem_nil _)

/-- A poll of the producer goes round once more. -/
theorem polls_keeps {p p' : Stream} {b : Bool} {waker : Waker}
    (ht : (Thread.stream p).polling = some (b, waker))
    (hu : (Thread.stream p').polling = some (false, waker))
    (ha : (Thread.stream p').awaits = none) : Keeps 0 (.stream p) [.stream p'] := by
  refine ⟨?_, le_rfl, rfl, rfl, fun _ => rfl, le_rfl, fun _ => rfl, ?_, ?_⟩
  · intro v hv g' hg'
    rw [List.mem_singleton] at hv
    subst hv
    cases hg'
  · intro v hv
    rw [List.mem_singleton] at hv
    subst hv
    exact ha
  · intro v hv stored waker' h
    rw [List.mem_singleton] at hv
    subst hv
    rw [hu] at h
    cases h
    exact ⟨rfl, b, ht⟩

theorem stream_side {p : Stream} (h : streamStep cfg s p ch = some (s', ts)) :
    SideStep cfg s.side (.stream p) ts s'.side := by
  revert h
  fun_cases streamStep cfg s p ch <;> first | exact of_none | apply of_some
  case case3 => exact .begins rfl rfl
  case case8 => exact .begins rfl rfl
  case case17 | case21 =>
    exact .silent rfl (polls_keeps rfl rfl rfl)
  case case18 op waker hclosed hfull hterm =>
    have hc : s.write.state.localClosed = false := Bool.eq_false_iff.mpr hclosed
    refine .of_side ?_ (.accepts rfl hc rfl)
    refine side_extend rfl ?_ rfl rfl rfl rfl rfl (List.append_nil _) (List.append_nil _)
    rw [hc, Bool.false_or]
    rfl
  case case19 => exact .stores rfl rfl
  case case20 op waker hfull =>
    refine .of_side ?_ (.parks rfl hfull rfl)
    exact side_extend rfl rfl rfl rfl rfl rfl (List.append_nil _) (List.append_nil _)
      (List.append_nil _)
  case case25 op waiter hterm => exact .control rfl rfl hterm
  case case26 => exact .notifies rfl rfl
  case case28 | case29 =>
    refine .of_side ?_ (.receives rfl rfl)
    exact side_extend rfl rfl rfl rfl rfl rfl (List.append_nil _) (List.append_nil _)
      (List.append_nil _)
  all_goals refine .silent ?_ ?_
  all_goals first
    | rfl
    | exact side_trace rfl rfl ⟨rfl, rfl, rfl⟩
    | exact .one rfl rfl (fun _ => rfl) rfl (fun _ => rfl) rfl rfl
    | exact .ends rfl rfl (fun _ => rfl) (fun _ => rfl) (List.forall_mem_nil _)

theorem call_writeCompleted {n n' : Native} {pointer : Nat}
    (h : n.call (.writeCompleted pointer) = some n') :
    n.outstanding.any (·.pointer == pointer) = true ∧
      n'.outstanding = n.outstanding.eraseP (·.pointer == pointer) := by
  simp only [Native.call] at h
  split_ifs at h with hp
  cases h
  exact ⟨hp, rfl⟩

theorem outside_side {who : Request.Outside} (h : outsideStep s who ch = some (s', ts)) :
    SideStep cfg s.side (.outside who) ts s'.side := by
  revert h
  fun_cases outsideStep s who ch <;> intro h
  case case1 c ha =>
    obtain ⟨n, hn, h⟩ := Option.map_eq_some_iff.mp h
    cases h
    have hplain : Thread.Plain (.outside .cronet) :=
      ⟨rfl, rfl, fun _ => rfl, rfl, fun _ => rfl, rfl, rfl⟩
    cases c with
    | writeCompleted pointer =>
      obtain ⟨hp, ho⟩ := call_writeCompleted hn
      refine .of_side ?_ (.calls rfl hp rfl)
      exact side_extend rfl rfl rfl rfl ho rfl (List.append_nil _) (List.append_nil _)
        (List.append_nil _)
    | _ =>
      cases hn
      refine .silent (side_trace rfl rfl ⟨rfl, rfl, rfl⟩) ?_
      exact .ends rfl rfl (fun _ => rfl) (fun _ => rfl)
        (plain_two hplain ⟨rfl, rfl, fun _ => rfl, rfl, fun _ => rfl, rfl, rfl⟩)
  all_goals cases h
  all_goals exact .silent rfl (.ends rfl rfl (fun _ => rfl) (fun _ => rfl)
    (plain_two ⟨rfl, rfl, fun _ => rfl, rfl, fun _ => rfl, rfl, rfl⟩
      ⟨rfl, rfl, fun _ => rfl, rfl, fun _ => rfl, rfl, rfl⟩))

/-- **Every step is on the list.** -/
theorem step_side (h : step cfg s t ch = some (s', ts)) : SideStep cfg s.side t ts s'.side := by
  cases t <;> simp only [step] at h
  case outside who => exact outside_side h
  case openStream p => exact open_side h
  case shutdown p => exact shutdown_side h
  case control p => exact control_side h
  case callback p => exact callback_side h
  case terminal p => exact terminal_side h
  case finish p => exact finish_side h
  case task p => exact task_side h
  case writer p => exact writer_side h
  case stream p => exact stream_side h
  case cleanup p => exact cleanup_side h

end TokioCronet.Bidirectional
