import Mathlib.Data.Multiset.Bind
import TokioCronet.Bidirectional.Wakeups
import TokioCronet.Lib.Observed
import TokioCronet.Lib.Trace

/-!
# The reads of a bidirectional stream

The response headers give one thread the right to call `read`, and the completion of a
read gives it to the task that sends the chunk. The chunk is in the channel before that
task comes to `start_read`, so the native stream holds at most one read, and the chunks
are in the channel in the order of the completions. A completion of no bytes gives the
right to nobody.
-/

namespace TokioCronet.Bidirectional

open Pool

variable {cfg : Settings} {s s' : Shared} {t u : Thread} {ch : Choice} {ts : List Thread}
  {rest : Multiset Thread} {c c' : Config Shared Thread}

/-! ## What is seen of the reads -/

/-- What the native stream and the adapter do about reading. -/
inductive Act where
  | headers
  | read
  /-- The adapter has seen that a read was refused. -/
  | refused
  | completed (bytesRead : Int) (content : Option Bytes)
  | succeeded
  | failed
  deriving DecidableEq

/-- The error of a `read` that the native stream refuses. -/
def refusesRead : Error → Bool
  | .bidirectionalApi operation _ => operation == "read"
  | _ => false

/-- What a callback says about reading. -/
def Callback.act : Callback → Option Act
  | .responseHeaders _ => some .headers
  | .readCompleted n content => some (.completed n content)
  | .succeeded => some .succeeded
  | .failed _ | .canceled => some .failed
  | _ => none

/-- What an event says about reading. -/
def Event.act : Event → Option Act
  | .read => some .read
  | .recorded e => if refusesRead e then some .refused else none
  | .callbackBegun c => c.act
  | _ => none

/-- What a run has said about reading, in order. -/
def acts (tr : List Event) : List Act := tr.filterMap Event.act

/-- The headers have come. -/
def Act.isHeaders : Act → Bool
  | .headers => true
  | _ => false

/-- A read was begun. -/
def Act.isRead : Act → Bool
  | .read => true
  | _ => false

/-- A read was refused. -/
def Act.isRefused : Act → Bool
  | .refused => true
  | _ => false

/-- A read was completed. -/
def Act.isCompleted : Act → Bool
  | .completed _ _ => true
  | _ => false

/-- The remote side has no more to send. -/
def Act.drains : Act → Bool
  | .completed n _ => n == 0
  | _ => false

/-- The chunk that a completion gives rise to, if any. -/
def chunkOf (n : Int) (content : Option Bytes) : List Bytes :=
  if 0 < n then [(content.getD []).take n.toNat] else []

/-- A chunk for each positive completion. -/
def Act.chunks : Act → List Bytes
  | .completed n content => chunkOf n content
  | _ => []

/-- The chunks of a stream, in the order of the completions. -/
def brought (l : List Act) : List Bytes := l.flatMap Act.chunks

/-- A completion that reports between 0 and `read_buffer_size` bytes. -/
def InRange (cfg : Settings) (n : Int) : Prop := 0 ≤ n ∧ n.toNat ≤ cfg.readBufferSize

instance (n : Int) : Decidable (InRange cfg n) := inferInstanceAs (Decidable (_ ∧ _))

/-- No terminal callback of a failure, no completion out of range, and the read side is
not dropped. -/
structure GoesWell (cfg : Settings) (s : Shared) : Prop where
  /-- No terminal callback has told of a failure. -/
  failed : Act.failed ∉ acts s.trace
  /-- No completion was out of range. -/
  inRange : ∀ n content, Act.completed n content ∈ acts s.trace → InRange cfg n
  /-- The read side is not dropped. -/
  receiver : s.channel.receiver = true

/-- The stream is over with `on_succeeded`. -/
structure EndsWell (cfg : Settings) (s : Shared) : Prop extends GoesWell cfg s where
  /-- `on_succeeded` has come. -/
  succeeded : Act.succeeded ∈ acts s.trace

/-! ## Who may read -/

/-- Whether the callback brings the right to read. -/
def Callback.token : Callback → Nat
  | .responseHeaders _ => 1
  | .readCompleted n _ => (n != 0).toNat
  | _ => 0

/-- Whether the operation has the right to read. -/
def GatedOp.token : GatedOp → Nat
  | .startRead _ => 1
  | _ => 0

/-- The callback cancels with a guard of the read state. -/
def GatedOp.guards : GatedOp → Nat
  | .cancel (.callback true) => 1
  | _ => 0

/-- Threads that come to the next `read`, and the callback that has refused a completion and
keeps the read state locked. -/
def Thread.token : Thread → Nat
  | .callback (.entered c) => c.token
  | .callback (.headers _) | .callback .spawnRead | .task (.send _) => 1
  | .callback (.readCompleted n _) => (n != 0).toNat
  | .callback (.measure _) | .callback .unlockRead | .task (.record (.callback true) _) => 1
  | .control (.store who) => (GatedOp.cancel who).guards
  | .control (.lock op) | .control (.raw op) | .control (.started op) | .control (.done op)
  | .control (.claim op) | .control (.call op) => op.guards + op.token
  | .control (.unlock op _) => op.guards
  | _ => 0

/-- Threads that come to `fail_then_cancel` with a read that was refused. -/
def Thread.refused : Thread → Nat
  | .control (.unlock op (some e)) => op.token * (refusesRead e).toNat
  | .task (.record _ e) => (refusesRead e).toNat
  | _ => 0

/-- The reads that the native stream has refused. -/
def refused (c : Config Shared Thread) : Nat :=
  (acts c.shared.trace).countP Act.isRefused + total Thread.refused c.threads

/-- Response headers come once, and a read that was not refused completes at most once. -/
structure ReadsOnce (c : Config Shared Thread) (_ : Thread) (ch : Choice) : Prop where
  /-- Headers come when none have come. -/
  headers : ∀ headers, ch = .callback (.responseHeaders headers) →
    (acts c.shared.trace).countP Act.isHeaders = 0
  /-- A completion belongs to a read that was neither completed nor refused. -/
  completed : ∀ n content, ch = .callback (.readCompleted n content) →
    (acts c.shared.trace).countP Act.isCompleted + refused c <
      (acts c.shared.trace).countP Act.isRead

/-- What the native stream promises about reading: `ReadsOnce`, a completion hands over its
data unless it has 0 bytes or failed, and `on_succeeded` comes after the completion with 0
bytes. -/
structure ReadContract (c : Config Shared Thread) (t : Thread) (ch : Choice) : Prop
    extends ReadsOnce c t ch where
  /-- There is data behind a completion with bytes. -/
  data : ∀ n content, ch = .callback (.readCompleted n content) → 0 < n → content.isSome = true
  /-- The end comes behind the completion with 0 bytes. -/
  succeeded : ch = .callback .succeeded → ∃ a ∈ acts c.shared.trace, a.drains = true

/-! ## What the threads carry -/

/-- The chunk that a thread has still to send. -/
def Thread.piece : Thread → List Bytes
  | .callback (.entered (.readCompleted n content)) | .callback (.readCompleted n content) =>
    chunkOf n content
  | .task (.send (.chunk bytes)) => [bytes]
  | _ => []

/-- Whether the callback ends the reading. -/
def Callback.ends : Callback → Nat
  | .readCompleted n _ => (n == 0).toNat
  | .succeeded | .failed _ | .canceled => 1
  | _ => 0

/-- Threads that come to the end of the events. -/
def Thread.ends : Thread → Nat
  | .callback (.entered c) => c.ends
  | .callback (.readCompleted n _) => (n == 0).toNat
  | .terminal .signal => 0
  | .terminal _ => 1
  | .finish (.drain .terminal _) | .finish (.wake .terminal _) | .finish (.notify .terminal _) => 1
  | .task (.sendLast _) => 1
  | _ => 0

/-- A completion that `on_read_completed` does not accept. -/
def invalid (cfg : Settings) (n : Int) (content : Option Bytes) : Bool :=
  n < 0 || cfg.readBufferSize < n.toNat || (n != 0 && content.isNone)

/-- Whether the callback fails the reading. -/
def Callback.fails (cfg : Settings) : Callback → Nat
  | .readCompleted n content => (invalid cfg n content).toNat
  | .failed _ | .canceled => 1
  | _ => 0

/-- `Err` counts. -/
def errs : Result Unit → Nat
  | .ok () => 0
  | .error _ => 1

/-- Threads that come to an error, other than that of a refused read. -/
def Thread.fails (cfg : Settings) : Thread → Nat
  | .callback (.entered c) => c.fails cfg
  | .callback (.readCompleted n content) => (invalid cfg n content).toNat
  | .callback (.measure _) => 1
  | .control (.unlock op (some e)) => op.token * (!refusesRead e).toNat
  | .task (.record _ e) => (!refusesRead e).toNat
  | .task (.send (.chunk _)) | .task (.sendLast .eof) => 0
  | .task (.send _) | .task (.sendLast _) => 1
  | .terminal (.first fallback) | .terminal (.take fallback) => fallback.isSome.toNat
  | .terminal (.ready result) | .terminal (.headers result) | .terminal (.setHeaders result)
  | .terminal (.trailers result) | .terminal (.setTrailers result) | .terminal (.watch result)
  | .terminal (.spawn result) => errs result
  | .finish (.drain .terminal result) | .finish (.wake .terminal result)
  | .finish (.notify .terminal result) => errs result
  | _ => 0

/-! ## One step -/

/-- Whether the act ends the reading. -/
def Act.ends : Act → Nat
  | .completed n _ => (n == 0).toNat
  | .succeeded | .failed => 1
  | _ => 0

/-- Whether the act fails the reading. -/
def Act.fails (cfg : Settings) : Act → Nat
  | .completed n content => (invalid cfg n content).toNat
  | .failed => 1
  | _ => 0

/-- What a step lets the observer see. -/
inductive Acted (ch : Choice) : Option Act → Prop
  | nothing : Acted ch none
  | read : Acted ch (some .read)
  | refused : Acted ch (some .refused)
  | begins (c : Callback) : ch = .callback c → Acted ch c.act

/-- Whether the act gives the right to read. -/
def Act.grants : Act → Nat
  | .headers => 1
  | .completed n _ => (n != 0).toNat
  | _ => 0

/-- Nobody may read who was not given the right to. -/
structure Turn (s : Shared) (t : Thread) (ch : Choice) (s' : Shared) (ts : List Thread)
    (a : Option Act) : Prop where
  /-- The act is the step's own. -/
  acted : Acted ch a
  /-- The act is noted. -/
  acts : acts s'.trace = acts s.trace ++ a.toList
  /-- Who reads had the right to, or was given it. -/
  token : a.toList.countP Act.isRead + (ts.map Thread.token).sum ≤
    t.token + (a.toList.map Act.grants).sum
  /-- What is refused was begun. -/
  refused : a.toList.countP Act.isRefused + (ts.map Thread.refused).sum ≤
    t.refused + a.toList.countP Act.isRead

/-- What a step does with the chunks and the channel. -/
inductive Delivery (cfg : Settings) (s : Shared) (t : Thread) (s' : Shared) (ts : List Thread) :
    Option Act → Prop
  | spoiled {a : Option Act} : 0 < t.fails cfg → Delivery cfg s t s' ts a
  | deaf {a : Option Act} : s'.channel.receiver = false → Delivery cfg s t s' ts a
  /-- The chunk stays with the thread or what comes of it. -/
  | passes {a : Option Act} : s'.channel = { s.channel with senders := s'.channel.senders } →
      s'.context.pendingError = s.context.pendingError →
      ts.flatMap Thread.piece = t.piece ++ brought a.toList →
      (ts.map Thread.ends).sum ≤ t.ends + (a.toList.map Act.ends).sum →
      (ts.map (Thread.fails cfg)).sum ≤ t.fails cfg + (a.toList.map (Act.fails cfg)).sum →
      Delivery cfg s t s' ts a
  | sends {bytes : Bytes} : s'.channel.queue = s.channel.queue ++ [.chunk bytes] →
      s'.context.pendingError = s.context.pendingError → 0 < t.token → t.piece = [bytes] →
      ts.flatMap Thread.piece = [] → (ts.map Thread.ends).sum = 0 →
      (ts.map (Thread.fails cfg)).sum = 0 → Delivery cfg s t s' ts none
  | finishes : s'.channel.queue = s.channel.queue ++ [.eof] →
      s'.context.pendingError = s.context.pendingError → 0 < t.ends → t.piece = [] → ts = [] →
      Delivery cfg s t s' ts none
  | takes {event : ReadEvent} : s.channel.queue = event :: s'.channel.queue →
      s'.context.pendingError = s.context.pendingError → t.piece = [] →
      ts.flatMap Thread.piece = [] → (ts.map Thread.ends).sum = 0 →
      (ts.map (Thread.fails cfg)).sum = 0 → Delivery cfg s t s' ts none
  /-- A refused read is recorded. -/
  | records : s'.channel = s.channel → t.piece = [] → ts.flatMap Thread.piece = [] →
      (ts.map Thread.ends).sum = 0 → (ts.map (Thread.fails cfg)).sum = 0 →
      Delivery cfg s t s' ts (some .refused)
  /-- `terminal` takes the recorded error. -/
  | settles : s'.channel = s.channel → s'.context.pendingError = none → 0 < t.ends →
      t.piece = [] → ts.flatMap Thread.piece = [] → (ts.map Thread.ends).sum ≤ t.ends →
      (s.context.pendingError = none → (ts.map (Thread.fails cfg)).sum ≤ t.fails cfg) →
      Delivery cfg s t s' ts none

/-- What a step does for reading. -/
def ReadStep (cfg : Settings) (s : Shared) (t : Thread) (ch : Choice) (s' : Shared)
    (ts : List Thread) : Prop :=
  (s'.channel.receiver = true → s.channel.receiver = true) ∧
    ∃ a, Turn s t ch s' ts a ∧ Delivery cfg s t s' ts a

theorem acts_append (l l' : List Event) : acts (l ++ l') = acts l ++ acts l' :=
  List.filterMap_append

theorem acts_other {tr : List Event} {e : Event} (h : e.act = none) :
    acts (tr ++ [e]) = acts tr ++ (none : Option Act).toList := by
  have he : acts [e] = [] := List.filterMap_cons_none h
  rw [acts_append, he]
  rfl

theorem acts_one {tr : List Event} {e : Event} {a : Act} (h : e.act = some a) :
    acts (tr ++ [e]) = acts tr ++ (some a).toList := by
  have he : acts [e] = [a] := List.filterMap_cons_some h
  rw [acts_append, he]
  rfl

theorem acts_same (tr : List Event) : acts tr = acts tr ++ (none : Option Act).toList :=
  (List.append_nil _).symm

theorem acts_answers {tr : List Event} (waiters : List Waiter) (result : Result Unit) :
    acts (tr ++ waiters.map fun waiter => .answered waiter result) =
      acts tr ++ (none : Option Act).toList := by
  rw [acts_append, acts, acts, List.filterMap_map]
  congr 1
  exact List.filterMap_eq_nil_iff.mpr fun _ _ => rfl

/-- The right and the chunk stay with the thread or what comes of it. -/
theorem ReadStep.still (hacts : acts s'.trace = acts s.trace ++ (none : Option Act).toList)
    (hchannel : s'.channel = { s.channel with senders := s'.channel.senders })
    (herror : s'.context.pendingError = s.context.pendingError)
    (htoken : (ts.map Thread.token).sum ≤ t.token)
    (hrefused : (ts.map Thread.refused).sum ≤ t.refused)
    (hpiece : ts.flatMap Thread.piece = t.piece)
    (hends : (ts.map Thread.ends).sum ≤ t.ends)
    (hfails : (ts.map (Thread.fails cfg)).sum ≤ t.fails cfg) : ReadStep cfg s t ch s' ts := by
  have hreceiver : s'.channel.receiver = s.channel.receiver := by rw [hchannel]
  refine ⟨hreceiver.symm.trans, none, ⟨.nothing, hacts, ?_, ?_⟩,
    .passes hchannel herror (hpiece.trans (List.append_nil _).symm) hends hfails⟩
  · rw [Option.toList_none, List.countP_nil, Nat.zero_add]
    exact htoken
  · rw [Option.toList_none, List.countP_nil, Nat.zero_add]
    exact hrefused

/-- A thread that has nothing to do with reading. -/
theorem ReadStep.idle (hacts : acts s'.trace = acts s.trace ++ (none : Option Act).toList)
    (hchannel : s'.channel = { s.channel with senders := s'.channel.senders })
    (herror : s'.context.pendingError = s.context.pendingError)
    (htoken : (ts.map Thread.token).sum = 0) (hrefused : (ts.map Thread.refused).sum = 0)
    (hpiece : ts.flatMap Thread.piece = t.piece) (hends : (ts.map Thread.ends).sum = 0)
    (hfails : (ts.map (Thread.fails cfg)).sum = 0) : ReadStep cfg s t ch s' ts :=
  .still hacts hchannel herror (htoken.trans_le (Nat.zero_le _))
    (hrefused.trans_le (Nat.zero_le _)) hpiece (hends.trans_le (Nat.zero_le _))
    (hfails.trans_le (Nat.zero_le _))

theorem open_reads {p : Open} (h : openStep cfg s p ch = some (s', ts)) :
    ReadStep cfg s (.openStream p) ch s' ts := by
  revert h
  fun_cases openStep cfg s p ch <;> first | exact of_none | apply of_some
  all_goals first
    | exact .idle (acts_same _) rfl rfl rfl rfl rfl rfl rfl
    | exact .idle (acts_other rfl) rfl rfl rfl rfl rfl rfl rfl
    | exact ⟨fun h => Bool.noConfusion h, none,
        ⟨.nothing, acts_same _, Nat.le_refl _, Nat.le_refl _⟩, .deaf rfl⟩

theorem shutdown_reads {p : Request.Shutdown} (h : shutdownStep s p ch = some (s', ts)) :
    ReadStep cfg s (.shutdown p) ch s' ts := by
  revert h
  fun_cases shutdownStep s p ch <;> first | exact of_none | apply of_some
  all_goals exact .idle (acts_same _) rfl rfl rfl rfl rfl rfl rfl

theorem finish_reads {p : Finish} (h : finishStep s p ch = some (s', ts)) :
    ReadStep cfg s (.finish p) ch s' ts := by
  revert h
  fun_cases finishStep s p ch <;> first | exact of_none | apply of_some
  case case1 who result w answered =>
    refine .still ?_ rfl rfl (Nat.le_refl _) (Nat.le_refl _) rfl ?_ ?_
    · exact (acts_other (e := .finished result) rfl).trans
        (by rw [Option.toList_none, List.append_nil]; exact acts_answers _ _)
    · cases who <;> exact Nat.le_refl _
    · cases who <;> exact Nat.le_refl _
  case case2 who result =>
    refine .still ?_ ?_ ?_ (Nat.le_refl _) (Nat.le_refl _) rfl ?_ ?_
    · unfold Shared.wake
      split <;> exact acts_same _
    · unfold Shared.wake
      split <;> rfl
    · unfold Shared.wake
      split <;> rfl
    · cases who <;> exact Nat.le_refl _
    · cases who <;> exact Nat.le_refl _
  case case3 who result =>
    cases who
    · exact .still (acts_same _) rfl rfl (Nat.le_refl _) (Nat.le_refl _) rfl (Nat.le_refl _)
        (Nat.le_refl _)
    · exact .idle (acts_same _) rfl rfl rfl rfl rfl rfl rfl

/-- The last `Arc` of the context drops the context's own sender. -/
theorem releaseArc_reads (htoken : (ts.map Thread.token).sum = 0)
    (hrefused : (ts.map Thread.refused).sum = 0) (hpiece : ts.flatMap Thread.piece = t.piece)
    (hends : (ts.map Thread.ends).sum = 0) (hfails : (ts.map (Thread.fails cfg)).sum = 0)
    (hgo : ch = .go) : ReadStep cfg s t ch s.releaseArc ts := by
  subst hgo
  refine .idle ?_ ?_ ?_ htoken hrefused hpiece hends hfails
  · unfold Shared.releaseArc
    split_ifs <;> exact acts_same _
  · unfold Shared.releaseArc
    split_ifs <;> rfl
  · unfold Shared.releaseArc
    split_ifs <;> rfl

theorem after_idle (op : GatedOp) (e : Option Error) :
    ((op.after e).map Thread.token).sum = op.guards ∧ (op.after e).flatMap Thread.piece = [] ∧
      ((op.after e).map Thread.ends).sum = 0 := by
  fun_cases GatedOp.after op e <;> exact ⟨rfl, rfl, rfl⟩

theorem after_refused (cfg : Settings) (op : GatedOp) (e : Option Error) :
    ((op.after e).map Thread.refused).sum ≤ (Thread.control (.unlock op e)).refused ∧
      ((op.after e).map (Thread.fails cfg)).sum ≤
        (Thread.control (.unlock op e)).fails cfg := by
  fun_cases GatedOp.after op e <;> constructor <;>
    first
      | exact Nat.zero_le _
      | exact Nat.le_of_eq (Nat.one_mul _).symm

/-- The gate refuses: the stream is gone or done. -/
theorem refused_reads {p : Control} (op : GatedOp) (hpiece : (Thread.control p).piece = [])
    (htoken : (Thread.control p).token = op.guards + op.token) :
    ReadStep cfg s (.control p) ch s [.control (.unlock op op.refused)] := by
  refine .still (acts_same _) rfl rfl ?_ ?_ hpiece.symm ?_ ?_
  · rw [htoken]
    exact Nat.le_add_right _ _
  · cases op <;> exact Nat.zero_le _
  · exact Nat.zero_le _
  · cases op <;> exact Nat.zero_le _

theorem unlock_reads (op : GatedOp) (e : Option Error)
    (hs : s'.trace = s.trace ∧ s'.channel = s.channel ∧ s'.context = s.context) :
    ReadStep cfg s (.control (.unlock op e)) ch s' (op.after e) := by
  obtain ⟨htrace, hchannel, hcontext⟩ := hs
  obtain ⟨htoken, hpiece, hends⟩ := after_idle op e
  obtain ⟨hrefused, hfails⟩ := after_refused cfg op e
  refine .still ?_ ?_ ?_ htoken.le hrefused ?_ (hends.trans_le (Nat.zero_le _)) hfails
  · rw [htrace]
    exact acts_same _
  · rw [hchannel]
  · rw [hcontext]
  · rw [hpiece]
    rfl

theorem control_reads {p : Control} (h : controlStep s p ch = some (s', ts)) :
    ReadStep cfg s (.control p) ch s' ts := by
  revert h
  fun_cases controlStep s p ch <;> first | exact of_none | apply of_some
  all_goals first
    | exact .idle (acts_same _) rfl rfl rfl rfl rfl rfl rfl
    | exact .idle (acts_other rfl) rfl rfl rfl rfl rfl rfl rfl
    | exact .still (acts_same _) rfl rfl (Nat.le_refl _) (Nat.le_refl _) rfl (Nat.le_refl _)
        (Nat.le_refl _)
    | exact .still (acts_other rfl) rfl rfl (Nat.le_refl _) (Nat.le_refl _) rfl (Nat.le_refl _)
        (Nat.le_refl _)
    | exact ⟨id, some .read, ⟨.read, acts_one rfl, Nat.le_refl _, Nat.zero_le _⟩,
        .passes rfl rfl rfl (Nat.le_refl _) (Nat.le_refl _)⟩
    | exact ⟨id, some .read, ⟨.read, acts_one rfl, Nat.le_refl _, Nat.le_refl _⟩,
        .passes rfl rfl rfl (Nat.le_refl _) (Nat.le_refl _)⟩
    | exact unlock_reads _ _ ⟨rfl, rfl, rfl⟩
    | (refine refused_reads _ ?_ ?_ <;> rfl)

/-- A completion that `on_read_completed` does not accept. -/
theorem invalid_of {n : Int} {content : Option Bytes}
    (h : n < 0 ∨ cfg.readBufferSize < n.toNat ∨ (n ≠ 0 ∧ content = none)) :
    0 < (Thread.callback (.readCompleted n content)).fails cfg := by
  have hinvalid : invalid cfg n content = true := by
    rcases h with h | h | ⟨hn, rfl⟩
    · simp [invalid, h]
    · simp [invalid, h]
    · simp [invalid, hn]
  simp [Thread.fails, hinvalid]

theorem channel_wake : s.wake.channel = s.channel ∧ s.wake.context = s.context ∧
    s.wake.trace = s.trace := by
  unfold Shared.wake
  split <;> exact ⟨rfl, rfl, rfl⟩

theorem callback_reads {p : InCallback} (h : callbackStep cfg s p ch = some (s', ts)) :
    ReadStep cfg s (.callback p) ch s' ts := by
  revert h
  fun_cases callbackStep cfg s p ch <;> first | exact of_none | apply of_some
  case case1 c =>
    cases c with
    | readCompleted n content =>
      exact .still (acts_same _) rfl rfl (Nat.le_refl _) (Nat.le_refl _) (List.append_nil _)
        (Nat.le_refl _) (Nat.le_refl _)
    | _ =>
      exact .still (acts_same _) rfl rfl (Nat.le_refl _) (Nat.le_refl _) rfl (Nat.le_refl _)
        (Nat.le_refl _)
  -- the completion is recorded as an error
  case case9 hneg =>
    exact ⟨id, none, ⟨.nothing, acts_same _, Nat.zero_le _, Nat.zero_le _⟩,
      .spoiled (invalid_of (.inl hneg))⟩
  case case10 n content _ _ hbad =>
    have hne : n ≠ 0 := by
      rcases hbad with hlarge | ⟨hne, -⟩
      · omega
      · exact hne
    have htoken : (n != 0).toNat = 1 := by simp [hne]
    exact ⟨id, none, ⟨.nothing, acts_same _, Nat.le_of_eq htoken.symm, Nat.zero_le _⟩,
      .spoiled (invalid_of (.inr hbad))⟩
  case case12 n content _ hneg _ hne =>
    have hpos : 0 < n := by omega
    have hpiece : chunkOf n content = [(content.getD []).take n.toNat] := if_pos hpos
    have htoken : (n != 0).toNat = 1 := by simp [hne]
    refine .still (acts_same _) rfl rfl ?_ (Nat.zero_le _) ?_ (Nat.zero_le _) (Nat.zero_le _)
    · exact Nat.le_of_eq htoken.symm
    · exact hpiece.symm
  case case16 => exact .idle (acts_answers _ _) rfl rfl rfl rfl rfl rfl rfl
  case case18 =>
    obtain ⟨hchannel, hcontext, htrace⟩ := channel_wake (s := s)
    refine .idle ?_ ?_ ?_ rfl rfl rfl rfl rfl
    · rw [htrace]
      exact acts_same _
    · rw [hchannel]
    · rw [hcontext]
  all_goals first
    | exact .idle (acts_same _) rfl rfl rfl rfl rfl rfl rfl
    | exact .still (acts_same _) rfl rfl (Nat.le_refl _) (Nat.le_refl _) rfl (Nat.le_refl _)
        (Nat.le_refl _)

theorem terminal_reads {p : Terminal} (h : terminalStep s p ch = some (s', ts)) :
    ReadStep cfg s (.terminal p) ch s' ts := by
  revert h
  fun_cases terminalStep s p ch <;> first | exact of_none | apply of_some
  case case3 fallback =>
    refine ⟨id, none, ⟨.nothing, acts_same _, Nat.zero_le _, Nat.zero_le _⟩,
      .settles rfl rfl Nat.one_pos rfl rfl (Nat.le_refl _) ?_⟩
    intro hnone
    rw [hnone]
    cases fallback <;> exact Nat.le_refl _
  case case13 result =>
    cases result <;> exact .still (acts_same _) rfl rfl (Nat.le_refl _) (Nat.le_refl _) rfl
      (Nat.le_refl _) (Nat.le_refl _)
  all_goals first
    | exact .idle (acts_same _) rfl rfl rfl rfl rfl rfl rfl
    | exact .still (acts_same _) rfl rfl (Nat.le_refl _) (Nat.le_refl _) rfl (Nat.le_refl _)
        (Nat.le_refl _)
    | exact .still (acts_other rfl) rfl rfl (Nat.le_refl _) (Nat.le_refl _) rfl (Nat.le_refl _)
        (Nat.le_refl _)

/-- `fail_then_cancel` records an error, which is that of a refused read or of a thread
that fails. -/
theorem record_reads {site : Site} {e : Error} {u : Thread} (ht : t = .task (.record site e))
    (htoken : u.token ≤ t.token) (hrefused : u.refused = 0) (hpiece : u.piece = [])
    (hends : u.ends = 0) (hfails : u.fails cfg = 0) : ReadStep cfg s t ch (s.record e) [u] := by
  subst ht
  have htokens : ([u].map Thread.token).sum ≤ (Thread.task (.record site e)).token := by
    rw [List.map_singleton, List.sum_singleton]
    exact htoken
  have hrefuseds : ([u].map Thread.refused).sum = 0 := by rw [List.map_singleton, hrefused]; rfl
  by_cases he : refusesRead e = true
  · have hact : (Event.recorded e).act = some .refused := if_pos he
    refine ⟨id, some .refused, ⟨.refused, acts_one hact, ?_, ?_⟩,
      .records rfl rfl ?_ ?_ ?_⟩
    · simpa [Act.isRead, Act.grants] using htokens
    · rw [hrefuseds]
      simp [Act.isRead, Act.isRefused, Thread.refused, he]
    · simp [hpiece]
    · simp [hends]
    · simp [hfails]
  · have hact : (Event.recorded e).act = none := if_neg he
    refine ⟨id, none, ⟨.nothing, acts_other hact, ?_, ?_⟩, .spoiled ?_⟩
    · simpa using htokens
    · rw [hrefuseds]
      exact Nat.zero_le _
    · simp [Thread.fails, he]

theorem task_reads {p : Task} (h : taskStep cfg s p ch = some (s', ts)) :
    ReadStep cfg s (.task p) ch s' ts := by
  revert h
  fun_cases taskStep cfg s p ch <;> first | exact of_none | apply of_some
  case case1 event _ _ =>
    cases event with
    | chunk bytes =>
      exact ⟨id, none, ⟨.nothing, acts_same _, Nat.le_refl _, Nat.le_refl _⟩,
        .sends rfl rfl Nat.one_pos rfl rfl rfl rfl⟩
    | _ =>
      exact ⟨id, none, ⟨.nothing, acts_same _, Nat.le_refl _, Nat.le_refl _⟩, .spoiled Nat.one_pos⟩
  case case3 event hclosed =>
    exact ⟨id, none, ⟨.nothing, acts_same _, Nat.zero_le _, Nat.zero_le _⟩,
      .deaf (Bool.eq_false_iff.mpr hclosed)⟩
  case case4 event _ _ =>
    cases event with
    | eof =>
      exact ⟨id, none, ⟨.nothing, acts_same _, Nat.le_refl _, Nat.le_refl _⟩,
        .finishes rfl rfl Nat.one_pos rfl rfl⟩
    | _ =>
      exact ⟨id, none, ⟨.nothing, acts_same _, Nat.le_refl _, Nat.le_refl _⟩, .spoiled Nat.one_pos⟩
  case case7 reading e =>
    refine record_reads rfl ?_ rfl rfl rfl rfl
    cases reading <;> exact Nat.le_refl _
  case case8 => exact record_reads rfl (Nat.le_refl _) rfl rfl rfl rfl
  case case10 => exact releaseArc_reads rfl rfl rfl rfl rfl rfl
  all_goals exact .idle (acts_same _) rfl rfl rfl rfl rfl rfl rfl

theorem writer_reads {p : Writer} (h : writerStep s p ch = some (s', ts)) :
    ReadStep cfg s (.writer p) ch s' ts := by
  revert h
  fun_cases writerStep s p ch <;> first | exact of_none | apply of_some
  all_goals first
    | exact .idle (acts_same _) rfl rfl rfl rfl rfl rfl rfl
    | exact .idle (acts_other rfl) rfl rfl rfl rfl rfl rfl rfl

theorem stream_reads {p : Stream} (h : streamStep cfg s p ch = some (s', ts)) :
    ReadStep cfg s (.stream p) ch s' ts := by
  revert h
  fun_cases streamStep cfg s p ch <;> first | exact of_none | apply of_some
  case case9 hqueue | case10 hqueue | case11 hqueue =>
    exact ⟨id, none, ⟨.nothing, acts_other rfl, Nat.le_refl _, Nat.le_refl _⟩,
      .takes hqueue rfl rfl rfl rfl rfl⟩
  case case33 =>
    exact ⟨fun h => Bool.noConfusion h, none,
        ⟨.nothing, acts_same _, Nat.le_refl _, Nat.le_refl _⟩, .deaf rfl⟩
  all_goals first
    | exact .idle (acts_same _) rfl rfl rfl rfl rfl rfl rfl
    | exact .idle (acts_other rfl) rfl rfl rfl rfl rfl rfl rfl

theorem cleanup_reads {p : Cleanup} (h : cleanupStep s p ch = some (s', ts)) :
    ReadStep cfg s (.cleanup p) ch s' ts := by
  revert h
  fun_cases cleanupStep s p ch <;> first | exact of_none | apply of_some
  case case18 => exact releaseArc_reads rfl rfl rfl rfl rfl rfl
  case case19 => exact releaseArc_reads rfl rfl rfl rfl rfl rfl
  all_goals first
    | exact .idle (acts_same _) rfl rfl rfl rfl rfl rfl rfl
    | exact .idle (acts_other rfl) rfl rfl rfl rfl rfl rfl rfl

theorem outside_reads {who : Request.Outside} (h : outsideStep s who ch = some (s', ts)) :
    ReadStep cfg s (.outside who) ch s' ts := by
  revert h
  fun_cases outsideStep s who ch <;> intro h
  case case1 c _ =>
    obtain ⟨native, -, heq⟩ := Option.map_eq_some_iff.mp h
    cases heq
    have hacts : acts (s.trace ++ [.callbackBegun c]) = acts s.trace ++ c.act.toList := by
      rw [acts_append]
      cases c <;> rfl
    refine ⟨id, c.act, ⟨.begins c rfl, hacts, ?_, ?_⟩, .passes rfl rfl ?_ ?_ ?_⟩
    · cases c <;> exact Nat.le_of_eq (Nat.add_comm _ _)
    · cases c <;> exact Nat.zero_le _
    · cases c <;> rfl
    · cases c <;> simp [Thread.ends, Callback.ends, Callback.act, Act.ends]
    · cases c <;> simp [Thread.fails, Callback.fails, Callback.act, Act.fails]
  all_goals
    cases h
    try exact .idle (acts_same _) rfl rfl rfl rfl rfl rfl rfl

theorem step_reads (h : step cfg s t ch = some (s', ts)) : ReadStep cfg s t ch s' ts := by
  cases t with
  | outside who => exact outside_reads h
  | openStream p => exact open_reads h
  | shutdown p => exact shutdown_reads h
  | control p => exact control_reads h
  | callback p => exact callback_reads h
  | terminal p => exact terminal_reads h
  | finish p => exact finish_reads h
  | task p => exact task_reads h
  | writer p => exact writer_reads h
  | stream p => exact stream_reads h
  | cleanup p => exact cleanup_reads h

/-! ## One read at a time -/

/-- The completion of no bytes has begun. -/
def Drained (l : List Act) : Prop := ∃ a ∈ l, a.drains = true

/-- What is there to be read: one right to read for each completion, and one for the
response headers. -/
structure TurnInv (c : Config Shared Thread) : Prop where
  /-- One right for each completion and for the headers. -/
  budget : (acts c.shared.trace).countP Act.isRead + total Thread.token c.threads ≤
    (acts c.shared.trace).countP Act.isCompleted + (acts c.shared.trace).countP Act.isHeaders
  /-- No read is completed or refused twice. -/
  answered : (acts c.shared.trace).countP Act.isCompleted + refused c ≤
    (acts c.shared.trace).countP Act.isRead
  /-- The headers come once. -/
  headers : (acts c.shared.trace).countP Act.isHeaders ≤ 1
  /-- They come before the completions. -/
  begun : 0 < (acts c.shared.trace).countP Act.isCompleted →
    (acts c.shared.trace).countP Act.isHeaders = 1
  /-- Behind a completion with 0 bytes nobody has the right. -/
  drained : Drained (acts c.shared.trace) →
    (acts c.shared.trace).countP Act.isRead + total Thread.token c.threads ≤
      (acts c.shared.trace).countP Act.isCompleted
  /-- Behind it nothing is read. -/
  bars : Trace.Bars (fun a => a.drains = true) (fun a => a.isRead = true) (acts c.shared.trace)

theorem drained_append {l : List Act} {a : Act} :
    Drained (l ++ [a]) ↔ Drained l ∨ a.drains = true := by
  unfold Drained
  constructor
  · rintro ⟨b, hb, hdrains⟩
    rcases List.mem_append.mp hb with hb | hb
    · exact .inl ⟨b, hb, hdrains⟩
    · rw [List.mem_singleton.mp hb] at hdrains
      exact .inr hdrains
  · rintro (⟨b, hb, hdrains⟩ | hdrains)
    · exact ⟨b, List.mem_append_left _ hb, hdrains⟩
    · exact ⟨a, List.mem_append_right _ (List.mem_singleton_self a), hdrains⟩

/-- Before the stream is drained there is a completion to come, and then there was one. -/
theorem completed_of_drained {l : List Act} (h : Drained l) : 0 < l.countP Act.isCompleted := by
  obtain ⟨a, ha, hdrains⟩ := h
  refine List.countP_pos_iff.mpr ⟨a, ha, ?_⟩
  cases a with
  | completed n content => rfl
  | _ => cases hdrains

theorem turn_init : TurnInv start.config where
  budget := Nat.zero_le _
  answered := Nat.le_refl _
  headers := Nat.zero_le _
  begun h := absurd h (Nat.lt_irrefl 0)
  drained _ := Nat.zero_le _
  bars := Trace.bars_nil

/-- What is seen of a step that neither reads nor completes a read. -/
theorem turn_quiet {a : Option Act} (hi : TurnInv ⟨s, t ::ₘ rest⟩) (h : Turn s t ch s' ts a)
    (ha : ∀ b ∈ a, b.isHeaders = false ∧ b.isRead = false ∧ b.isCompleted = false) :
    TurnInv ⟨s', ts + rest⟩ := by
  obtain ⟨-, hacts, htoken, hrefused⟩ := h
  obtain ⟨hbudget, hanswered, hheaders, hbegun, hdrained, hbars⟩ := hi
  simp only [refused, total_cons] at hbudget hanswered hheaders hbegun hdrained
  cases a with
  | none =>
    simp only [Option.toList_none, List.append_nil, List.countP_nil, List.map_nil,
      List.sum_nil] at hacts htoken hrefused
    constructor <;> simp only [hacts, refused, total_add, total_coe]
    · omega
    · omega
    · exact hheaders
    · exact hbegun
    · intro hd
      have := hdrained hd
      omega
    · exact hbars
  | some b =>
    obtain ⟨hhead, hread, hcompleted⟩ := ha b rfl
    have hgrants : b.grants = 0 ∧ b.drains = false := by
      cases b with
      | headers => cases hhead
      | completed => cases hcompleted
      | _ => exact ⟨rfl, rfl⟩
    obtain ⟨hgrants, hdrains⟩ := hgrants
    simp only [Option.toList_some, List.countP_singleton, List.map_singleton, List.sum_singleton,
      hread, hgrants, Bool.false_eq_true, if_false] at hacts htoken hrefused
    constructor <;> simp only [hacts, refused, total_add, total_coe, List.countP_append,
      List.countP_singleton, hhead, hread, hcompleted, Bool.false_eq_true, if_false,
      drained_append, hdrains, or_false]
    · omega
    · omega
    · exact hheaders
    · exact hbegun
    · intro hd
      have := hdrained hd
      omega
    · refine hbars.append fun hr => ?_
      rw [hread] at hr
      cases hr

/-- **What a step does with the right to read.** -/
theorem turn_step {a : Option Act} (hi : TurnInv ⟨s, t ::ₘ rest⟩)
    (hp : ReadsOnce ⟨s, t ::ₘ rest⟩ t ch) (h : Turn s t ch s' ts a) :
    TurnInv ⟨s', ts + rest⟩ := by
  have hquiet := turn_quiet hi h
  obtain ⟨hacted, hacts, htoken, hrefused⟩ := h
  obtain ⟨hbudget, hanswered, hheaders, hbegun, hdrained, hbars⟩ := hi
  simp only [refused, total_cons] at hbudget hanswered hheaders hbegun hdrained
  cases hacted with
  | nothing => exact hquiet fun b hb => absurd hb (Option.not_mem_none b)
  | refused => exact hquiet fun b hb => by cases hb; exact ⟨rfl, rfl, rfl⟩
  | read =>
    simp only [Option.toList_some, List.countP_singleton, List.map_singleton, List.sum_singleton,
      Act.isRead, Act.isRefused, Act.grants, if_true, Bool.false_eq_true, if_false]
      at hacts htoken hrefused
    constructor <;> simp only [hacts, refused, total_add, total_coe, List.countP_append,
      List.countP_singleton, Act.isRead, Act.isRefused, Act.isHeaders, Act.isCompleted, if_true,
      Bool.false_eq_true, if_false, drained_append, Act.drains, or_false]
    · omega
    · omega
    · exact hheaders
    · exact hbegun
    · intro hd
      have := hdrained hd
      omega
    · -- whoever reads has the right to, and nobody has it once the stream is drained
      refine hbars.append fun _ b hb hdrains => ?_
      have := hdrained ⟨b, hb, hdrains⟩
      omega
  | begins cb hch =>
    cases cb with
    | responseHeaders headers =>
      have hnone : (acts s.trace).countP Act.isHeaders = 0 := hp.headers headers hch
      simp only [Callback.act, Option.toList_some, List.countP_singleton, List.map_singleton,
        List.sum_singleton, Act.isRead, Act.isRefused, Act.grants, Bool.false_eq_true, if_false]
        at hacts htoken hrefused
      constructor <;> simp only [hacts, refused, total_add, total_coe, List.countP_append,
        List.countP_singleton, Act.isRead, Act.isRefused, Act.isHeaders, Act.isCompleted, if_true,
        Bool.false_eq_true, if_false, drained_append, Act.drains, or_false]
      · omega
      · omega
      · omega
      · omega
      · intro hd
        have := hbegun (completed_of_drained hd)
        omega
      · exact hbars.append fun hr => absurd hr (by simp [Act.isRead])
    | readCompleted n content =>
      have hread := hp.completed n content hch
      simp only [refused, total_cons] at hread
      simp only [Callback.act, Option.toList_some, List.countP_singleton, List.map_singleton,
        List.sum_singleton, Act.isRead, Act.isRefused, Act.grants, Bool.false_eq_true, if_false]
        at hacts htoken hrefused
      have hle : (n != 0).toNat ≤ 1 := Bool.toNat_le _
      constructor <;> simp only [hacts, refused, total_add, total_coe, List.countP_append,
        List.countP_singleton, Act.isRead, Act.isRefused, Act.isHeaders, Act.isCompleted, if_true,
        Bool.false_eq_true, if_false, drained_append, Act.drains]
      · omega
      · omega
      · exact hheaders
      · omega
      · rintro (hd | hn)
        · have := hdrained hd
          omega
        · rw [beq_iff_eq] at hn
          subst hn
          simp only [bne_self_eq_false, Bool.toNat_false] at htoken
          omega
      · exact hbars.append fun hr => absurd hr (by simp [Act.isRead])
    | _ => exact hquiet fun b hb => by cases hb <;> exact ⟨rfl, rfl, rfl⟩

/-! ## The chunks in order -/

/-- The chunks that threads have still to send. -/
def carried (m : Multiset Thread) : Multiset Bytes := m.bind fun t => (t.piece : Multiset Bytes)

theorem carried_cons {m : Multiset Thread} : carried (t ::ₘ m) = t.piece + carried m :=
  Multiset.cons_bind t m _

theorem carried_add {m : Multiset Thread} :
    carried (ts + m) = (ts.flatMap Thread.piece : List Bytes) + carried m := by
  rw [carried, Multiset.add_bind, Multiset.coe_bind]
  rfl

theorem chunkOf_le (n : Int) (content : Option Bytes) :
    (chunkOf n content).length ≤ (n != 0).toNat := by
  unfold chunkOf
  split_ifs with hpos
  · have hne : (n != 0) = true := bne_iff_ne.mpr (by omega)
    rw [hne]
    exact Nat.le_refl _
  · exact Nat.zero_le _

theorem piece_le_token (t : Thread) : t.piece.length ≤ t.token := by
  unfold Thread.piece
  split
  · exact chunkOf_le _ _
  · exact chunkOf_le _ _
  · exact Nat.le_refl _
  · exact Nat.zero_le _

/-- Whoever has a chunk to send has the right to read. -/
theorem carried_le (m : Multiset Thread) : (carried m).card ≤ total Thread.token m := by
  induction m using Multiset.induction with
  | empty => exact Nat.le_refl _
  | cons t m ih =>
    rw [carried_cons, Multiset.card_add, total_cons, Multiset.coe_card]
    exact Nat.add_le_add (piece_le_token t) ih

/-- What has been sent of the chunks, and what comes after them. -/
structure Ordered (c : Config Shared Thread) (log : List ReadEvent) (sent left : List Bytes)
    (n : Nat) : Prop where
  /-- The chunks that were brought, in order. -/
  brought : brought (acts c.shared.trace) = sent ++ left
  /-- Those that are not sent yet are with a thread. -/
  left : (left : Multiset Bytes) = carried c.threads
  /-- The others were sent, and after them the end. -/
  sent : log ++ c.shared.channel.queue =
    sent.map ReadEvent.chunk ++ List.replicate n ReadEvent.eof
  /-- It was sent behind the completion with 0 bytes. -/
  drained : 0 < n → Drained (acts c.shared.trace)

/-- The events of a run without a failure are those of its reads, in order. -/
structure DeliveryInv (cfg : Settings) (c : Config Shared Thread) (log : List ReadEvent) :
    Prop where
  /-- No thread is about to fail the reading. -/
  fails : total (Thread.fails cfg) c.threads = 0
  /-- Only a refused read records an error. -/
  pending : c.shared.context.pendingError ≠ none →
    0 < (acts c.shared.trace).countP Act.isRefused
  /-- Who ends the reading has the completion with 0 bytes behind it. -/
  ends : total Thread.ends c.threads = 0 ∨ Drained (acts c.shared.trace)
  /-- So has `on_succeeded`. -/
  succeeded : Act.succeeded ∈ acts c.shared.trace → Drained (acts c.shared.trace)
  /-- The events are in the order of the reads. -/
  ordered : ∃ sent left n, Ordered c log sent left n

/-- The events that a step takes out of the channel. -/
def received (c c' : Config Shared Thread) : List ReadEvent :=
  c.shared.channel.queue.take (c.shared.channel.queue.length - c'.shared.channel.queue.length)

theorem delivery_init : DeliveryInv cfg start.config [] where
  fails := rfl
  pending h := absurd rfl h
  ends := .inl rfl
  succeeded h := absurd h List.not_mem_nil
  ordered := ⟨[], [], 0, rfl, rfl, rfl, fun h => absurd h (Nat.lt_irrefl 0)⟩

theorem brought_append (l l' : List Act) : brought (l ++ l') = brought l ++ brought l' :=
  List.flatMap_append

theorem Drained.append {l : List Act} (h : Drained l) (l' : List Act) : Drained (l ++ l') := by
  obtain ⟨a, ha, hdrains⟩ := h
  exact ⟨a, List.mem_append_left l' ha, hdrains⟩

theorem TurnInv.token_le (h : TurnInv c) : total Thread.token c.threads ≤ 1 := by
  have hbudget := h.budget
  have hanswered := h.answered
  have hheaders := h.headers
  omega

/-- Once the stream is drained nobody may read, and no read was refused. -/
theorem TurnInv.at_end (h : TurnInv c) (hd : Drained (acts c.shared.trace)) :
    total Thread.token c.threads = 0 ∧ (acts c.shared.trace).countP Act.isRefused = 0 := by
  have hdrained := h.drained hd
  have hanswered := h.answered
  rw [refused] at hanswered
  omega

/-- A step that leaves what is sent as it is. -/
theorem ordered_passes {a : Option Act} {log log' : List ReadEvent} {sent left : List Bytes}
    {n : Nat} (h : Ordered ⟨s, t ::ₘ rest⟩ log sent left n)
    (hacts : acts s'.trace = acts s.trace ++ a.toList)
    (hpiece : ts.flatMap Thread.piece = t.piece ++ brought a.toList)
    (hlog : log' ++ s'.channel.queue = log ++ s.channel.queue) :
    Ordered ⟨s', ts + rest⟩ log' sent (left ++ brought a.toList) n := by
  obtain ⟨hbrought, hleft, hsent, hdrained⟩ := h
  constructor
  · show brought (acts s'.trace) = _
    rw [hacts, brought_append, hbrought, List.append_assoc]
  · rw [carried_add, hpiece, ← Multiset.coe_add, hleft, carried_cons, ← Multiset.coe_add]
    exact add_right_comm _ _ _
  · rw [hlog, hsent]
  · intro hn
    show Drained (acts s'.trace)
    rw [hacts]
    exact (hdrained hn).append _

/-- The only chunk there is goes into the channel. -/
theorem ordered_sends {bytes : Bytes} {log log' : List ReadEvent} {sent left : List Bytes}
    {n : Nat} (hturn : TurnInv ⟨s, t ::ₘ rest⟩) (h : Ordered ⟨s, t ::ₘ rest⟩ log sent left n)
    (hacts : acts s'.trace = acts s.trace) (htoken : 0 < t.token) (ht : t.piece = [bytes])
    (hts : ts.flatMap Thread.piece = [])
    (hlog : log' ++ s'.channel.queue = log ++ s.channel.queue ++ [.chunk bytes]) :
    Ordered ⟨s', ts + rest⟩ log' (sent ++ [bytes]) [] 0 := by
  obtain ⟨hbrought, hleft, hsent, hdrained⟩ := h
  have hone : total Thread.token (t ::ₘ rest) ≤ 1 := hturn.token_le
  have hrest : carried rest = 0 := by
    have hle := carried_le rest
    rw [total_cons] at hone
    exact Multiset.card_eq_zero.mp (by omega)
  have hleft' : left = [bytes] := by
    rw [carried_cons, ht, hrest, add_zero] at hleft
    exact List.perm_singleton.mp (Multiset.coe_eq_coe.mp hleft)
  have hzero : n = 0 := by
    by_contra hn
    have hnone := (hturn.at_end (hdrained (Nat.pos_of_ne_zero hn))).1
    rw [total_cons] at hnone
    omega
  constructor
  · show brought (acts s'.trace) = _
    rw [hacts, hbrought, hleft', List.append_nil]
  · rw [carried_add, hts, hrest]
    rfl
  · rw [hlog, hsent, hzero]
    simp
  · intro h0
    exact absurd h0 (Nat.lt_irrefl 0)

/-- The end of the events goes into the channel. -/
theorem ordered_finishes {log log' : List ReadEvent} {sent left : List Bytes} {n : Nat}
    (h : Ordered ⟨s, t ::ₘ rest⟩ log sent left n) (hacts : acts s'.trace = acts s.trace)
    (ht : t.piece = []) (hdrained : Drained (acts s.trace))
    (hlog : log' ++ s'.channel.queue = log ++ s.channel.queue ++ [.eof]) :
    Ordered ⟨s', rest⟩ log' sent left (n + 1) := by
  obtain ⟨hbrought, hleft, hsent, -⟩ := h
  constructor
  · show brought (acts s'.trace) = _
    rw [hacts, hbrought]
  · rw [hleft, carried_cons, ht]
    exact zero_add _
  · rw [hlog, hsent, List.append_assoc, List.replicate_succ']
  · intro _
    show Drained (acts s'.trace)
    rw [hacts]
    exact hdrained

theorem received_none (h : s'.channel.queue = s.channel.queue) (m m' : Multiset Thread) :
    received ⟨s, m⟩ ⟨s', m'⟩ = [] := by
  show List.take (s.channel.queue.length - s'.channel.queue.length) _ = _
  rw [h, Nat.sub_self, List.take_zero]

theorem received_sent {event : ReadEvent} (h : s'.channel.queue = s.channel.queue ++ [event])
    (m m' : Multiset Thread) : received ⟨s, m⟩ ⟨s', m'⟩ = [] := by
  show List.take (s.channel.queue.length - s'.channel.queue.length) _ = _
  rw [h, List.length_append, Nat.sub_eq_zero_of_le (Nat.le_add_right _ _), List.take_zero]

theorem received_one {event : ReadEvent} (h : s.channel.queue = event :: s'.channel.queue)
    (m m' : Multiset Thread) : received ⟨s, m⟩ ⟨s', m'⟩ = [event] := by
  show List.take (s.channel.queue.length - s'.channel.queue.length) s.channel.queue = _
  rw [h, List.length_cons, Nat.add_sub_cancel_left]
  rfl

/-- A completion in range is accepted. -/
theorem fails_of_goesWell {a : Option Act} {c : Config Shared Thread} (hp : ReadContract c t ch)
    (hacted : Acted ch a) (hw : GoesWell cfg s') (hmem : ∀ b ∈ a, b ∈ acts s'.trace) :
    (a.toList.map (Act.fails cfg)).sum = 0 := by
  cases hacted with
  | begins cb hch =>
    cases cb with
    | readCompleted n content =>
      obtain ⟨hneg, hsize⟩ := hw.inRange n content (hmem _ rfl)
      have hvalid : invalid cfg n content = false := by
        have hdata := hp.data n content hch
        cases content with
        | none =>
          have hn : n = 0 := by
            by_contra hne
            cases hdata (by omega)
          simp [invalid, hn]
        | some bytes => simp [invalid, hneg]; omega
      simp [Callback.act, Act.fails, hvalid]
    | failed e => exact absurd (hmem _ rfl) hw.failed
    | canceled => exact absurd (hmem _ rfl) hw.failed
    | _ => rfl
  | _ => rfl

/-- Whoever comes to the end of the events has seen the completion of no bytes. -/
theorem ends_of_goesWell {a : Option Act} {c : Config Shared Thread} (hp : ReadContract c t ch)
    (hacted : Acted ch a) (hw : GoesWell cfg s')
    (hacts : acts s'.trace = acts c.shared.trace ++ a.toList) :
    (a.toList.map Act.ends).sum = 0 ∨ Drained (acts s'.trace) := by
  cases hacted with
  | begins cb hch =>
    cases cb with
    | readCompleted n content =>
      by_cases hn : n = 0
      · refine .inr ?_
        rw [hacts]
        exact drained_append.mpr (.inr (by simp [hn, Act.drains]))
      · exact .inl (by simp [Callback.act, Act.ends, hn])
    | succeeded =>
      refine .inr ?_
      rw [hacts]
      exact Drained.append (hp.succeeded hch) _
    | failed e =>
      refine absurd ?_ hw.failed
      rw [hacts]
      exact List.mem_append_right _ (List.mem_singleton_self _)
    | canceled =>
      refine absurd ?_ hw.failed
      rw [hacts]
      exact List.mem_append_right _ (List.mem_singleton_self _)
    | _ => exact .inl rfl
  | _ => exact .inl rfl

/-- What is left to show of a step. -/
theorem delivery_of {a : Option Act} {log log' : List ReadEvent}
    (hi : DeliveryInv cfg ⟨s, t ::ₘ rest⟩ log) (hacts : acts s'.trace = acts s.trace ++ a.toList)
    (hsucceeded : a = some .succeeded → Drained (acts s'.trace))
    (hfails : (ts.map (Thread.fails cfg)).sum ≤ t.fails cfg)
    (hpending : s'.context.pendingError ≠ none → 0 < (acts s'.trace).countP Act.isRefused)
    (hends : (ts.map Thread.ends).sum ≤ t.ends ∨ Drained (acts s'.trace))
    (hordered : ∃ sent left n, Ordered ⟨s', ts + rest⟩ log' sent left n) :
    DeliveryInv cfg ⟨s', ts + rest⟩ log' := by
  have hmono : Drained (acts s.trace) → Drained (acts s'.trace) := by
    intro hd
    rw [hacts]
    exact hd.append _
  refine ⟨?_, hpending, ?_, ?_, hordered⟩
  · exact Nat.le_zero.mp (passed_step hi.fails.le hfails)
  · rcases hi.ends with hnone | hd
    · rcases hends with hle | hd'
      · exact .inl (Nat.le_zero.mp (passed_step hnone.le hle))
      · exact .inr hd'
    · exact .inr (hmono hd)
  · intro hmem
    replace hmem : Act.succeeded ∈ acts s'.trace := hmem
    rw [hacts] at hmem
    rcases List.mem_append.mp hmem with hmem | hmem
    · exact hmono (hi.succeeded hmem)
    · exact hsucceeded (Option.mem_toList.mp hmem)

/-- **What a step does with the chunks.** -/
theorem delivery_step {log : List ReadEvent} (hturn : TurnInv ⟨s, t ::ₘ rest⟩)
    (hp : ReadContract ⟨s, t ::ₘ rest⟩ t ch) (hw : GoesWell cfg s')
    (hi : DeliveryInv cfg ⟨s, t ::ₘ rest⟩ log) (h : ReadStep cfg s t ch s' ts) :
    DeliveryInv cfg ⟨s', ts + rest⟩ (log ++ received ⟨s, t ::ₘ rest⟩ ⟨s', ts + rest⟩) := by
  obtain ⟨-, a, ⟨hacted, hacts, -, -⟩, hdelivery⟩ := h
  have hnofail : t.fails cfg = 0 := by
    have hle : t.fails cfg ≤ total (Thread.fails cfg) (t ::ₘ rest) :=
      le_total (Multiset.mem_cons_self t rest)
    rw [show total (Thread.fails cfg) (t ::ₘ rest) = 0 from hi.fails] at hle
    exact Nat.le_zero.mp hle
  have hseen : 0 < t.ends → Drained (acts s.trace) := by
    intro ht
    refine hi.ends.resolve_left fun hnone => ?_
    have hle : t.ends ≤ total Thread.ends (t ::ₘ rest) := le_total (Multiset.mem_cons_self t rest)
    rw [show total Thread.ends (t ::ₘ rest) = 0 from hnone] at hle
    omega
  have hpending : s.context.pendingError ≠ none → 0 < (acts s'.trace).countP Act.isRefused := by
    intro hne
    have hpos := hi.pending hne
    rw [hacts, List.countP_append]
    exact Nat.lt_add_right _ hpos
  obtain ⟨sent, left, n, hordered⟩ := hi.ordered
  cases hdelivery with
  | spoiled hfails => omega
  | deaf hclosed =>
    have hopen := hw.receiver
    rw [hclosed] at hopen
    cases hopen
  | passes hchannel herror hpiece hends hfails =>
    have hmem : ∀ b ∈ a, b ∈ acts s'.trace := by
      intro b hb
      rw [hacts]
      exact List.mem_append_right _ (Option.mem_toList.mpr hb)
    have hqueue : s'.channel.queue = s.channel.queue := by rw [hchannel]
    have hafails := fails_of_goesWell hp hacted hw hmem
    have haends := ends_of_goesWell hp hacted hw hacts
    rw [received_none hqueue, List.append_nil]
    refine delivery_of hi hacts ?_ (by omega) (herror ▸ hpending) ?_
      ⟨sent, left ++ brought a.toList, n, ordered_passes hordered hacts hpiece (by rw [hqueue])⟩
    · rintro rfl
      exact haends.resolve_left (by simp [Act.ends])
    · rcases haends with hzero | hd
      · exact .inl (by omega)
      · exact .inr hd
  | sends hqueue herror htoken ht hts hends hfails =>
    rw [Option.toList_none, List.append_nil] at hacts
    rw [received_sent hqueue, List.append_nil]
    exact delivery_of (a := none) hi (hacts.trans (List.append_nil _).symm) nofun (by omega)
      (herror ▸ hpending) (.inl (by omega))
      ⟨_, [], 0, ordered_sends hturn hordered hacts htoken ht hts
        (by rw [hqueue, List.append_assoc])⟩
  | finishes hqueue herror hends ht hts =>
    subst hts
    rw [Option.toList_none, List.append_nil] at hacts
    rw [received_sent hqueue, List.append_nil]
    refine delivery_of (a := none) hi (hacts.trans (List.append_nil _).symm) nofun (Nat.zero_le _)
      (herror ▸ hpending) (.inl (Nat.zero_le _)) ⟨sent, left, n + 1, ?_⟩
    rw [Multiset.coe_nil, zero_add]
    exact ordered_finishes hordered hacts ht (hseen hends) (by rw [hqueue, List.append_assoc])
  | takes hqueue herror ht hts hends hfails =>
    rw [received_one hqueue]
    refine delivery_of (a := none) hi hacts nofun (by omega) (herror ▸ hpending) (.inl (by omega))
      ⟨sent, left ++ brought (none : Option Act).toList, n,
        ordered_passes hordered hacts (by rw [hts, ht]; rfl) ?_⟩
    rw [hqueue, List.append_assoc, List.singleton_append]
  | records hchannel ht hts hends hfails =>
    have hqueue : s'.channel.queue = s.channel.queue := by rw [hchannel]
    rw [received_none hqueue, List.append_nil]
    refine delivery_of (a := some .refused) hi hacts nofun (by omega) (fun _ => ?_)
      (.inl (by omega)) ⟨sent, left ++ brought (some Act.refused).toList, n,
        ordered_passes hordered hacts (by rw [hts, ht]; rfl) (by rw [hqueue])⟩
    rw [hacts, List.countP_append]
    exact Nat.succ_pos _
  | settles hchannel herror hseen' ht hts hends hfails =>
    have hqueue : s'.channel.queue = s.channel.queue := by rw [hchannel]
    have hnone : s.context.pendingError = none := by
      by_contra hne
      have hpos := hi.pending hne
      have hzero := (hturn.at_end (hseen hseen')).2
      omega
    rw [received_none hqueue, List.append_nil]
    exact delivery_of (a := none) hi hacts nofun (hfails hnone) (fun hne => absurd herror hne)
      (.inl hends) ⟨sent, left ++ brought (none : Option Act).toList, n,
        ordered_passes hordered hacts (by rw [hts, ht]; rfl) (by rw [hqueue])⟩

/-- What goes well has gone well before. -/
theorem GoesWell.before (h : GoesWell cfg s') (hstep : ReadStep cfg s t ch s' ts) :
    GoesWell cfg s := by
  obtain ⟨hreceiver, a, ⟨-, hacts, -, -⟩, -⟩ := hstep
  have hmem : ∀ b ∈ acts s.trace, b ∈ acts s'.trace := by
    intro b hb
    rw [hacts]
    exact List.mem_append_left _ hb
  exact ⟨fun hb => h.failed (hmem _ hb), fun n content hb => h.inRange n content (hmem _ hb),
    hreceiver h.receiver⟩

theorem turn_reachable (h : Reachable (step cfg) ReadsOnce start.config c) : TurnInv c := by
  refine h.invariant turn_init fun {c c'} _ hi hs => ?_
  obtain ⟨hp, hn⟩ := hs
  obtain ⟨-, a, hturn, -⟩ := step_reads hn
  exact turn_step hi hp hturn

theorem delivery_observed {log : List ReadEvent}
    (h : Observed (step cfg) ReadContract received start.config c log)
    (hw : GoesWell cfg c.shared) : DeliveryInv cfg c log := by
  revert hw
  refine h.invariant (P := fun c log => GoesWell cfg c.shared → DeliveryInv cfg c log)
    (fun _ => delivery_init) fun {c c' log} hr hi hs => ?_
  obtain ⟨hp, hn⟩ := hs
  intro hw
  have hstep := step_reads hn
  exact delivery_step (turn_reachable (hr.mono fun _ _ _ => ReadContract.toReadsOnce)) hp hw
    (hi (hw.before hstep)) hstep

/-- **At most one read is outstanding, none is issued once the stream is drained, and what
is received of a stream that ends well is a chunk for each positive completion, followed
only by ends of the stream.** -/
theorem chunks_in_order {log : List ReadEvent}
    (h : Observed (step cfg) ReadContract received start.config c log) :
    (acts c.shared.trace).countP Act.isRead ≤ (acts c.shared.trace).countP Act.isCompleted + 1 ∧
    Trace.Bars (fun a => a.drains = true) (fun a => a.isRead = true) (acts c.shared.trace) ∧
    (EndsWell cfg c.shared → ∃ n, log ++ c.shared.channel.queue =
      (brought (acts c.shared.trace)).map ReadEvent.chunk ++ List.replicate n ReadEvent.eof) := by
  have hturn := turn_reachable (h.reachable.mono fun _ _ _ => ReadContract.toReadsOnce)
  refine ⟨?_, hturn.bars, ?_⟩
  · have hbudget := hturn.budget
    have hheaders := hturn.headers
    omega
  · intro hw
    have hi := delivery_observed h hw.toGoesWell
    obtain ⟨sent, left, n, hbrought, hleft, hsent, -⟩ := hi.ordered
    have hnobody := (hturn.at_end (hi.succeeded hw.succeeded)).1
    have hnone : carried c.threads = 0 := by
      have hle := carried_le c.threads
      exact Multiset.card_eq_zero.mp (by omega)
    rw [hnone, Multiset.coe_eq_zero] at hleft
    rw [hleft, List.append_nil] at hbrought
    exact ⟨n, hbrought ▸ hsent⟩

/-- `ReadContract` as a test. -/
def readContract (c : Listed Shared Thread) (_ : Thread) (ch : Choice) : Bool :=
  match ch with
  | .callback (.responseHeaders _) => (acts c.shared.trace).countP Act.isHeaders == 0
  | .callback (.readCompleted n content) =>
    decide ((acts c.shared.trace).countP Act.isCompleted +
      ((acts c.shared.trace).countP Act.isRefused + (c.threads.map Thread.refused).sum) <
        (acts c.shared.trace).countP Act.isRead) && (n ≤ 0 || content.isSome)
  | .callback .succeeded => (acts c.shared.trace).any Act.drains
  | _ => true

theorem readContract_sound (c : Listed Shared Thread) (t : Thread) (ch : Choice)
    (h : readContract c t ch = true) : ReadContract c.config t ch := by
  refine ⟨⟨?_, ?_⟩, ?_, ?_⟩
  · rintro headers rfl
    exact beq_iff_eq.mp h
  · rintro n content rfl
    have hlt := of_decide_eq_true (Bool.and_eq_true_iff.mp h).1
    rw [← total_coe] at hlt
    exact hlt
  · rintro n content rfl hn
    have hdata := (Bool.and_eq_true_iff.mp h).2
    rcases Bool.or_eq_true_iff.mp hdata with hle | hsome
    · exact absurd (of_decide_eq_true hle) (by omega)
    · exact hsome
  · rintro rfl
    exact List.any_eq_true.mp h

/-- A chunk of two bytes, and the end. -/
def readsOnce : Schedule :=
  opens ++
  [(.outside .cronet, [.callback (.responseHeaders ⟨[], "h2"⟩)]),
   (.callback (.entered (.responseHeaders ⟨[], "h2"⟩)), go 3),
   (.control (.lock (.startRead false)), go 4 ++ [.result none] ++ go 1),
   (.outside .cronet, [.callback (.readCompleted 2 (some [1, 2]))]),
   (.callback (.entered (.readCompleted 2 (some [1, 2]))), go 2),
   (.task (.send (.chunk [1, 2])), go 5 ++ [.result none] ++ go 1),
   (.outside .cronet, [.callback (.readCompleted 0 (some []))]),
   (.callback (.entered (.readCompleted 0 (some []))), go 2),
   (.task (.sendLast .eof), go 1),
   (.outside .cronet, [.callback .succeeded]),
   (.callback (.entered .succeeded), go 15),
   (.task (.sendLast .eof), go 1),
   (.stream .idle, [.nextChunk])]

theorem chunks_in_order_once :
    let c := Pool.play (step {}) readContract start readsOnce
    EndsWell {} c.shared ∧ c.shared.channel.queue = [.eof, .eof] ∧
      ∃ log n, log ++ c.shared.channel.queue = [.chunk [1, 2]] ++ List.replicate n .eof := by
  intro c
  have hacts : acts c.shared.trace =
      [.headers, .read, .completed 2 (some [1, 2]), .read, .completed 0 (some []), .succeeded] := by
    decide +kernel
  have hw : EndsWell {} c.shared := by
    refine ⟨⟨?_, ?_, by decide +kernel⟩, ?_⟩ <;> rw [hacts]
    · decide
    · intro n content hmem
      simp only [List.mem_cons, reduceCtorEq, false_or, Act.completed.injEq, List.not_mem_nil,
        or_false] at hmem
      rcases hmem with ⟨rfl, -⟩ | ⟨rfl, -⟩ <;> decide
    · decide
  have hqueue : c.shared.channel.queue = [.eof, .eof] := by decide +kernel
  obtain ⟨log, hlog⟩ :
      ∃ log, Observed (step {}) ReadContract received start.config c.config log :=
    (play_reachable readContract_sound readsOnce Reachable.start).observed received
  clear_value c
  obtain ⟨n, hn⟩ := (chunks_in_order hlog).2.2 hw
  simp only [Listed.config] at hn
  rw [hacts] at hn
  exact ⟨hw, hqueue, log, n, hn⟩

end TokioCronet.Bidirectional
