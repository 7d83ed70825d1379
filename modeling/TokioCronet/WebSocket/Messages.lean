import TokioCronet.WebSocket.Opening

/-!
# The messages of a socket

`on_message` and `on_failure` hand their items to a channel of 32 with `try_send`, and
throw away what it refuses: they must not wait. The native side goes on reading whatever
the consumer does, so a slow one loses messages, and the failure report too. Nothing is
lost in a run in which the channel always has room.

The stream ends, for the consumer, when the last sender is gone. The sender is in the
context, of which the `WebSocket` itself holds an `Arc`: its own `next_message` never sees
the end.
-/

namespace TokioCronet.WebSocket

open Pool
open Request (Lifetime)

variable {s s' : Shared} {t u : Thread} {ts : List Thread} {c c' : Config Shared Thread}

/-- The items of the callbacks that have begun, in their order. -/
def begun (tr : List Event) : List Item :=
  tr.filterMap fun e =>
    match e with
    | .callbackBegun c => c.item
    | _ => none

/-- The items that went to `try_send`. -/
def delivered (tr : List Event) : List Item :=
  tr.filterMap fun e =>
    match e with
    | .delivered item => some item
    | _ => none

/-- The items that `next_message` has returned. -/
def received (tr : List Event) : List Item :=
  tr.filterMap fun e =>
    match e with
    | .received item => item
    | _ => none

@[simp] theorem begun_append {l r : List Event} : begun (l ++ r) = begun l ++ begun r :=
  List.filterMap_append

@[simp] theorem delivered_append {l r : List Event} :
    delivered (l ++ r) = delivered l ++ delivered r :=
  List.filterMap_append

@[simp] theorem received_append {l r : List Event} :
    received (l ++ r) = received l ++ received r :=
  List.filterMap_append

theorem begun_callback {c : Callback} : begun [.callbackBegun c] = c.item.toList := by
  unfold begun
  cases h : c.item <;> simp [h]

/-- The item that a callback has not yet given to the channel. -/
def Thread.pending : Thread → List Item
  | .callback (.entered c) _ | .callback (.answers c) _ | .callback (.sends c) _ => c.item.toList
  | _ => []

/-- The items on their way to the channel. -/
def pendingItems (m : Multiset Thread) : Multiset Item :=
  m.bind fun t => (t.pending : Multiset Item)

/-- **No message is lost.** Every callback's item is given to the channel once, in the order
of the callbacks; and while there is a consumer, what it has received and what it can still
receive is what was given, in that order. -/
structure NothingLost (c : Config Shared Thread) : Prop where
  /-- Every item is given to the channel once, or is with its callback. -/
  once : (begun c.shared.trace : Multiset Item) =
    delivered c.shared.trace + pendingItems c.threads
  /-- While the engine runs the callbacks come one after the other. -/
  order : c.shared.native.stopped = false → ∃ p : List Item,
    (p : Multiset Item) = pendingItems c.threads ∧
      begun c.shared.trace = delivered c.shared.trace ++ p
  /-- With a receiver it arrives in this order. -/
  kept : c.shared.messages.receiver = true →
    received c.shared.trace ++ c.shared.messages.queue = delivered c.shared.trace

/-- `try_send` finds room in the channel. -/
def HasRoom : Policy Shared Thread Choice := fun c t _ =>
  ∀ cb caller, t = .callback (.sends cb) caller → c.shared.messages.receiver = true →
    c.shared.messages.queue.length < Messages.capacity

/-! ## What one step does -/

/-- The part of the state that the messages are about. -/
structure Stream where
  begun : List Item
  delivered : List Item
  received : List Item
  queue : List Item
  receiver : Bool

/-- What the messages look at of the state. -/
def Shared.stream (s : Shared) : Stream where
  begun := begun s.trace
  delivered := delivered s.trace
  received := received s.trace
  queue := s.messages.queue
  receiver := s.messages.receiver

/-- What a step does to the messages. -/
inductive Flow (s : Shared) (t : Thread) (s' : Shared) (ts : List Thread) : Prop
  | quiet : s'.stream = s.stream → ts.flatMap Thread.pending = t.pending → Flow s t s' ts
  | begins (c : Callback) :
      s'.stream = { s.stream with begun := s.stream.begun ++ c.item.toList } →
      t.pending = [] → ts.flatMap Thread.pending = c.item.toList →
      t = .network ∨ s.native.stopped = true → Flow s t s' ts
  | delivers (item : Item) (cb : Callback) (caller : Caller) :
      s'.stream = { s.stream with
        delivered := s.stream.delivered ++ [item]
        queue := if s.messages.receiver && s.messages.queue.length < Messages.capacity then
          s.stream.queue ++ [item] else s.stream.queue } →
      t = .callback (.sends cb) caller → t.pending = [item] →
      ts.flatMap Thread.pending = [] → Flow s t s' ts
  | receives (item : Item) (queue : List Item) : s.stream.queue = item :: queue →
      s'.stream = { s.stream with received := s.stream.received ++ [item], queue := queue } →
      t.pending = [] → ts.flatMap Thread.pending = [] → Flow s t s' ts
  | drops (queue : List Item) : s'.stream = { s.stream with queue := queue, receiver := false } →
      t.pending = [] → ts.flatMap Thread.pending = [] → Flow s t s' ts

theorem Shared.stream_eq (tr : List Event) (h1 : s'.trace = s.trace ++ tr)
    (h2 : begun tr = []) (h3 : delivered tr = []) (h4 : received tr = [])
    (h5 : s'.messages.queue = s.messages.queue)
    (h6 : s'.messages.receiver = s.messages.receiver) : s'.stream = s.stream := by
  simp only [Shared.stream, h1, h5, h6, begun_append, delivered_append, received_append, h2, h3,
    h4, List.append_nil]

theorem map_engine_pending {us : List (Engine.Thread User)} :
    (us.map Thread.engine).flatMap Thread.pending = [] := by
  induction us with
  | nil => rfl
  | cons v us ih =>
    rw [List.map_cons, List.flatMap_cons, ih]
    rfl

theorem operationDrop_pending : s.operationDrop.flatMap Thread.pending = [] := by
  unfold Shared.operationDrop
  split <;> rfl

theorem releaseArc_pending : s.releaseArc.2.flatMap Thread.pending = [] := by
  unfold Shared.releaseArc
  split
  · split
    · exact operationDrop_pending
    · rfl
  · rfl

theorem releaseArc_stream : s.releaseArc.1.stream = s.stream := by
  unfold Shared.releaseArc
  split
  · split <;> rfl
  · rfl

theorem stream_reach : s.reach.stream = s.stream := by
  by_cases h : s.engineGone = true
  · refine Shared.stream_eq [.reached] ?_ rfl rfl rfl rfl rfl
    change s.trace ++ _ = _
    rw [if_pos h]
  · refine Shared.stream_eq [] ?_ rfl rfl rfl rfl rfl
    change s.trace ++ _ = _
    rw [if_neg h]

theorem stream_post {task : NetTask} : (s.post task).stream = s.stream := by
  have hnone : ∀ l : List NetTask, begun (l.map .posted) = [] ∧
      delivered (l.map .posted) = [] ∧ received (l.map .posted) = [] := by
    intro l
    induction l with
    | nil => exact ⟨rfl, rfl, rfl⟩
    | cons a l ih => exact ih
  obtain ⟨h1, h2, h3⟩ := hnone (s.posts task)
  exact Shared.stream_eq _ rfl h1 h2 h3 rfl rfl

theorem stream_ran (task : NetTask) (tasks : List NetTask) :
    (s.ran task tasks).stream = s.stream :=
  Shared.stream_eq [.ran task] rfl rfl rfl rfl rfl rfl

/-- A callback that has no context begins nothing. -/
theorem flow_notified {e : Shared} {c : Callback} {caller : Caller}
    (he : e.stream = s.stream) (hc : e.native.callbacks = s.native.callbacks)
    (ht : t.pending = []) (hnet : t = .network ∨ s.native.stopped = true) :
    Flow s t (e.notified c) [.callback (s.notify c) caller] := by
  by_cases h : s.native.callbacks = true
  · refine .begins c ?_ ht ?_ hnet
    · have htrace : (e.notified c).trace = e.trace ++ [.callbackBegun c] := by
        change e.trace ++ _ = _
        rw [hc, if_pos h]
      rw [← he]
      simp only [Shared.stream, htrace, begun_append, delivered_append, received_append,
        begun_callback]
      simp [delivered, received, Shared.notified]
    · unfold Shared.notify
      rw [if_pos h]
      exact List.append_nil _
  · refine .quiet ?_ ?_
    · rw [← he]
      refine Shared.stream_eq [] ?_ rfl rfl rfl rfl rfl
      change e.trace ++ _ = _
      rw [hc, if_neg h]
    · unfold Shared.notify
      rw [if_neg h, ht]
      rfl

/-- **Every step does one of these to the messages.** -/
theorem Move.flow (hm : Move s t s' ts) : Flow s t s' ts := by
  induction hm with
  | engine | stops =>
    refine .quiet rfl ?_
    rw [map_engine_pending]
    rfl
  | creates => exact .quiet (Shared.stream_eq [.created] rfl rfl rfl rfl rfl rfl) rfl
  | fails =>
    refine .drops s.messages.queue ?_ rfl ?_
    · simp [Shared.stream, Shared.openFailed, begun, delivered, received]
    · rw [List.flatMap_append, operationDrop_pending]
      rfl
  | opens => exact .quiet (Shared.stream_eq [.returned (.ok ())] rfl rfl rfl rfl rfl rfl) rfl
  | misses | loadsNull =>
    exact .quiet (Shared.stream_eq [.cancelled] rfl rfl rfl rfl rfl rfl) rfl
  | connects => exact .quiet (stream_post.trans stream_reach) rfl
  | calls => exact .quiet (stream_post.trans stream_reach) rfl
  | asks => exact .quiet (stream_post.trans stream_reach) rfl
  | @resets who again =>
    refine .quiet stream_reach ?_
    cases again <;> rfl
  | @waits who again =>
    refine .quiet rfl ?_
    cases again <;> rfl
  | closesRefused => exact .quiet stream_post rfl
  | closes =>
    refine .quiet ?_ rfl
    have hpost : (s.post (.close 1001 "")).stream = s.stream := stream_post
    refine Eq.trans ?_ hpost
    exact Shared.stream_eq [.cancelled] rfl rfl rfl rfl rfl rfl
  | unstarted hs => exact flow_notified stream_reach rfl rfl (.inr hs)
  | sendFails hs => exact flow_notified stream_reach rfl rfl (.inr hs)
  | faults => exact flow_notified (stream_ran _ _) rfl rfl (.inl rfl)
  | event => exact flow_notified rfl rfl rfl (.inl rfl)
  | leaks => exact .drops [] rfl rfl rfl
  | @deletes who =>
    refine .drops [] ?_ rfl ?_
    · cases who <;> simp [Shared.stream, begun, delivered, received, Destroyer.returns]
    · cases who <;> rfl
  | @runsConnect tasks => exact .quiet (stream_ran .connect tasks) rfl
  | @runsDestroy tasks => exact .quiet (stream_ran .destroy tasks) rfl
  | @runs task tasks => exact .quiet (stream_ran task tasks) rfl
  | @receives item queue hq =>
    refine .receives item queue hq ?_ rfl rfl
    simp [Shared.stream, begun, delivered, received]
  | ends => exact .quiet (Shared.stream_eq [.received none] rfl rfl rfl rfl rfl rfl) rfl
  | @enters c =>
    refine .quiet rfl ?_
    cases c <;> rfl
  | @answers c result p caller hanswer hp =>
    refine .quiet rfl ?_
    subst hp
    cases c with
    | opened => rfl
    | failure => rfl
    | _ => cases hanswer
  | @delivers cb item p caller hitem hp =>
    refine .delivers item cb caller ?_ rfl ?_ ?_
    · simp [Shared.stream, begun, delivered, received, Shared.trySend]
    · change cb.item.toList = _
      rw [hitem]
      rfl
    · subst hp
      split <;> rfl
  | finishes => exact .quiet (Shared.stream_eq [.finished _] rfl rfl rfl rfl rfl rfl) rfl
  | takes =>
    refine .quiet rfl ?_
    rw [List.flatMap_append, operationDrop_pending]
    rfl
  | lets =>
    refine .quiet releaseArc_stream ?_
    rw [List.flatMap_append, releaseArc_pending]
    rfl
  | gives =>
    refine .quiet releaseArc_stream ?_
    rw [releaseArc_pending]
    rfl
  | _ => exact .quiet rfl rfl

/-! ## The invariant -/

theorem pendingItems_cons {rest : Multiset Thread} :
    pendingItems (t ::ₘ rest) = t.pending + pendingItems rest :=
  Multiset.cons_bind t rest _

theorem pendingItems_add {rest : Multiset Thread} :
    pendingItems (ts + rest) = ts.flatMap Thread.pending + pendingItems rest := by
  unfold pendingItems
  rw [Multiset.add_bind, Multiset.coe_bind]

/-- The caller is not the network thread. -/
def Caller.outside : Caller → Bool
  | .network _ => false
  | .connect | .socket => true

/-- Callbacks on other threads than the network's come from a stopped engine. -/
def Thread.outside : Thread → Bool
  | .callback _ caller => caller.outside
  | _ => false

theorem Move.stoppedMono (hm : Move s t s' ts) (h : s.native.stopped = true) :
    s'.native.stopped = true := by
  induction hm with
  | stops =>
    change (s.native.stopped || _) = true
    rw [h]
    rfl
  | lets | gives =>
    rw [releaseArc_native]
    exact h
  | _ => exact h

theorem Move.outside (hm : Move s t s' ts)
    (ht : t.outside = true → s.native.stopped = true) :
    ∀ u ∈ ts, u.outside = true → s'.native.stopped = true := by
  have hmono := hm.stoppedMono
  induction hm with
  | engine | stops =>
    intro u hu hc
    obtain ⟨v, -, rfl⟩ := List.mem_map.mp hu
    cases hc
  | fails => exact (forall_spawned nofun (forall_single nofun)).1
  | @takes caller => exact (forall_spawned nofun (forall_single fun hc => hmono (ht hc))).1
  | @lets caller => exact (forall_spawned nofun (forall_single fun hc => hmono (ht hc))).2
  | gives =>
    intro u hu hc
    rw [mem_releaseArc hu] at hc
    cases hc
  | deletes => exact forall_releases nofun nofun
  | opens => exact List.forall_mem_cons.mpr ⟨nofun, forall_single nofun⟩
  | leaks => exact List.forall_mem_cons.mpr ⟨nofun, forall_single nofun⟩
  | @resets who again | @waits who again => cases again <;> exact forall_single nofun
  | unstarted hs => exact forall_single (fun _ => hmono hs)
  | sendFails hs => exact forall_single (fun _ => hmono hs)
  | ignores | enters | answers | delivers | finishes =>
    exact forall_single (fun hc => hmono (ht hc))
  | _ => exact forall_single nofun

/-- One network thread runs one callback at a time. -/
structure CallbacksInv (c : Config Shared Thread) : Prop where
  /-- At most one thread is the network thread. -/
  runs : total Thread.runs c.threads ≤ 1
  /-- The others call back only where it has stopped. -/
  outside : ∀ t ∈ c.threads, t.outside = true → c.shared.native.stopped = true

variable {allowed : Policy Shared Thread Choice}

theorem callbacksInv_reachable (h : Reachable step allowed start.config c) : CallbacksInv c := by
  refine h.invariant ⟨by decide, ?_⟩ ?_
  · intro t ht
    simp only [start, Listed.config, Multiset.mem_coe, List.mem_cons, List.not_mem_nil,
      or_false] at ht
    rcases ht with rfl | rfl | rfl | rfl <;> intro hc <;> cases hc
  · rintro c c' _ hi ⟨_, hn⟩
    have hm := step_move hn
    refine ⟨passed_step hi.runs hm.runs_le, ?_⟩
    exact forall_step hi.outside (fun ht => hm.outside ht)
      (fun u _ hold hc => hm.stoppedMono (hold hc))

/-- Beside the network thread, or a callback of its, nobody has an item. -/
theorem CallbacksInv.pendingItems_rest {rest : Multiset Thread}
    (hi : CallbacksInv ⟨s, t ::ₘ rest⟩) (hs : s.native.stopped = false) (ht : t.runs = 1) :
    pendingItems rest = 0 := by
  refine Multiset.eq_zero_of_forall_notMem ?_
  intro item hitem
  obtain ⟨u, hu, hmem⟩ := Multiset.mem_bind.mp hitem
  have hle : total Thread.runs (t ::ₘ rest) ≤ 1 := hi.runs
  have htwo := add_le_total (w := Thread.runs) (t := t) hu
  have hzero : u.runs = 0 := by omega
  have hout := hi.outside u (Multiset.mem_cons_of_mem hu)
  change u.outside = true → s.native.stopped = true at hout
  rw [hs] at hout
  cases u with
  | callback p caller =>
    cases caller with
    | network => cases hzero
    | connect | socket => cases hout rfl
  | _ => cases hmem

theorem Move.running (hm : Move s t s' ts) (hs : s'.native.stopped = false) :
    s.native.stopped = false := by
  by_contra hstopped
  rw [hm.stoppedMono (by simpa using hstopped)] at hs
  cases hs

section

variable {rest : Multiset Thread}

/-- A step that begins no callback and gives nothing to the channel. -/
theorem NothingLost.held (hi : NothingLost ⟨s, t ::ₘ rest⟩) (hm : Move s t s' ts)
    (hbegun : begun s'.trace = begun s.trace) (hdelivered : delivered s'.trace = delivered s.trace)
    (hpending : ts.flatMap Thread.pending = t.pending)
    (hkept : s'.messages.receiver = true →
      received s'.trace ++ s'.messages.queue = delivered s.trace) :
    NothingLost ⟨s', ts + rest⟩ := by
  have hitems : pendingItems (ts + rest) = pendingItems (t ::ₘ rest) := by
    rw [pendingItems_add, pendingItems_cons, hpending]
  refine ⟨?_, ?_, ?_⟩
  · change (begun s'.trace : Multiset Item) = delivered s'.trace + pendingItems (ts + rest)
    rw [hbegun, hdelivered, hitems]
    exact hi.once
  · intro hs
    obtain ⟨p, hp, heq⟩ := hi.order (hm.running hs)
    refine ⟨p, hp.trans hitems.symm, ?_⟩
    change begun s'.trace = delivered s'.trace ++ p
    rw [hbegun, hdelivered]
    exact heq
  · intro hr
    change received s'.trace ++ s'.messages.queue = delivered s'.trace
    rw [hdelivered]
    exact hkept hr

theorem NothingLost.quiet (hi : NothingLost ⟨s, t ::ₘ rest⟩) (hm : Move s t s' ts)
    (hstream : s'.stream = s.stream) (hpending : ts.flatMap Thread.pending = t.pending) :
    NothingLost ⟨s', ts + rest⟩ := by
  have hreceived : received s'.trace = received s.trace := congrArg Stream.received hstream
  have hqueue : s'.messages.queue = s.messages.queue := congrArg Stream.queue hstream
  have hreceiver : s'.messages.receiver = s.messages.receiver := congrArg Stream.receiver hstream
  refine hi.held hm (congrArg Stream.begun hstream) (congrArg Stream.delivered hstream) hpending ?_
  intro hr
  rw [hreceived, hqueue]
  exact hi.kept (hreceiver ▸ hr)

/-- A callback begins, on the network thread or after it has stopped: while it runs, no other
callback has an item. -/
theorem NothingLost.begins {cb : Callback} (hi : NothingLost ⟨s, t ::ₘ rest⟩)
    (hcallbacks : CallbacksInv ⟨s, t ::ₘ rest⟩) (hm : Move s t s' ts)
    (hstream : s'.stream = { s.stream with begun := s.stream.begun ++ cb.item.toList })
    (ht : t.pending = []) (hpending : ts.flatMap Thread.pending = cb.item.toList)
    (hnet : t = .network ∨ s.native.stopped = true) : NothingLost ⟨s', ts + rest⟩ := by
  have hbegun : begun s'.trace = begun s.trace ++ cb.item.toList := congrArg Stream.begun hstream
  have hdelivered : delivered s'.trace = delivered s.trace := congrArg Stream.delivered hstream
  have hreceived : received s'.trace = received s.trace := congrArg Stream.received hstream
  have hqueue : s'.messages.queue = s.messages.queue := congrArg Stream.queue hstream
  have hreceiver : s'.messages.receiver = s.messages.receiver := congrArg Stream.receiver hstream
  have honce : (begun s.trace : Multiset Item) = delivered s.trace + pendingItems rest := by
    have honce : (begun s.trace : Multiset Item) =
        delivered s.trace + pendingItems (t ::ₘ rest) := hi.once
    rwa [pendingItems_cons, ht, Multiset.coe_nil, zero_add] at honce
  refine ⟨?_, ?_, ?_⟩
  · change (begun s'.trace : Multiset Item) = delivered s'.trace + pendingItems (ts + rest)
    rw [hbegun, hdelivered, pendingItems_add, hpending, ← Multiset.coe_add, honce, add_assoc,
      add_comm (pendingItems rest)]
  · intro hs
    have hs' := hm.running hs
    obtain rfl : t = .network := hnet.resolve_right (by rw [hs']; nofun)
    have hnone := hcallbacks.pendingItems_rest hs' rfl
    obtain ⟨p, hp, heq⟩ := hi.order hs'
    have hempty : p = [] := by
      change (p : Multiset Item) = pendingItems (.network ::ₘ rest) at hp
      rw [pendingItems_cons, ht, hnone] at hp
      exact (Multiset.coe_eq_zero p).mp hp
    change begun s.trace = delivered s.trace ++ p at heq
    refine ⟨cb.item.toList, ?_, ?_⟩
    · change _ = pendingItems (ts + rest)
      rw [pendingItems_add, hpending, hnone, add_zero]
    · change begun s'.trace = delivered s'.trace ++ _
      rw [hbegun, hdelivered, heq, hempty, List.append_nil]
  · intro hr
    change received s'.trace ++ s'.messages.queue = delivered s'.trace
    rw [hreceived, hqueue, hdelivered]
    exact hi.kept (hreceiver ▸ hr)

/-- The callback of the network thread is the one callback that runs there. -/
theorem CallbacksInv.sends_runs {cb : Callback} {caller : Caller}
    (hi : CallbacksInv ⟨s, .callback (.sends cb) caller ::ₘ rest⟩)
    (hs : s.native.stopped = false) : (Thread.callback (.sends cb) caller).runs = 1 := by
  cases caller with
  | network => rfl
  | connect | socket =>
    have hout := hi.outside _ (Multiset.mem_cons_self _ rest) rfl
    change s.native.stopped = true at hout
    rw [hs] at hout
    cases hout

/-- An item goes to the channel, which has room for it. -/
theorem NothingLost.delivers {item : Item} {cb : Callback} {caller : Caller}
    (hi : NothingLost ⟨s, .callback (.sends cb) caller ::ₘ rest⟩)
    (hcallbacks : CallbacksInv ⟨s, .callback (.sends cb) caller ::ₘ rest⟩)
    (hm : Move s (.callback (.sends cb) caller) s' ts)
    (hroom : s.messages.receiver = true → s.messages.queue.length < Messages.capacity)
    (hstream : s'.stream = { s.stream with
      delivered := s.stream.delivered ++ [item]
      queue := if s.messages.receiver && s.messages.queue.length < Messages.capacity then
        s.stream.queue ++ [item] else s.stream.queue })
    (ht : (Thread.callback (.sends cb) caller).pending = [item])
    (hpending : ts.flatMap Thread.pending = []) : NothingLost ⟨s', ts + rest⟩ := by
  have hbegun : begun s'.trace = begun s.trace := congrArg Stream.begun hstream
  have hdelivered : delivered s'.trace = delivered s.trace ++ [item] :=
    congrArg Stream.delivered hstream
  have hreceived : received s'.trace = received s.trace := congrArg Stream.received hstream
  have hreceiver : s'.messages.receiver = s.messages.receiver := congrArg Stream.receiver hstream
  have honce : (begun s.trace : Multiset Item) =
      delivered s.trace + (([item] : List Item) + pendingItems rest) := by
    have honce : (begun s.trace : Multiset Item) =
        delivered s.trace + pendingItems (.callback (.sends cb) caller ::ₘ rest) := hi.once
    rwa [pendingItems_cons, ht] at honce
  refine ⟨?_, ?_, ?_⟩
  · change (begun s'.trace : Multiset Item) = delivered s'.trace + pendingItems (ts + rest)
    rw [hbegun, hdelivered, pendingItems_add, hpending, ← Multiset.coe_add, honce,
      Multiset.coe_nil, zero_add, add_assoc]
  · intro hs
    have hs' := hm.running hs
    have hnone := hcallbacks.pendingItems_rest hs' (hcallbacks.sends_runs hs')
    obtain ⟨p, hp, heq⟩ := hi.order hs'
    have hone : p = [item] := by
      change (p : Multiset Item) = pendingItems (_ ::ₘ rest) at hp
      rw [pendingItems_cons, ht, hnone, add_zero] at hp
      exact List.perm_singleton.mp (Multiset.coe_eq_coe.mp hp)
    change begun s.trace = delivered s.trace ++ p at heq
    refine ⟨[], ?_, ?_⟩
    · change _ = pendingItems (ts + rest)
      rw [pendingItems_add, hpending, hnone]
      rfl
    · change begun s'.trace = delivered s'.trace ++ []
      rw [hbegun, hdelivered, heq, hone, List.append_nil]
  · intro hr
    have hr' : s.messages.receiver = true := hreceiver ▸ hr
    have hqueue : s'.messages.queue = s.messages.queue ++ [item] := by
      have heq : s'.messages.queue = if s.messages.receiver &&
          s.messages.queue.length < Messages.capacity then s.messages.queue ++ [item]
          else s.messages.queue := congrArg Stream.queue hstream
      rw [heq, hr', Bool.true_and, if_pos (decide_eq_true (hroom hr'))]
    have hkept : received s.trace ++ s.messages.queue = delivered s.trace := hi.kept hr'
    change received s'.trace ++ s'.messages.queue = delivered s'.trace
    rw [hreceived, hqueue, hdelivered, ← List.append_assoc, hkept]

/-- The consumer takes the first item of the queue. -/
theorem NothingLost.receives {item : Item} {queue : List Item}
    (hi : NothingLost ⟨s, t ::ₘ rest⟩) (hm : Move s t s' ts)
    (hq : s.messages.queue = item :: queue)
    (hstream : s'.stream =
      { s.stream with received := s.stream.received ++ [item], queue := queue })
    (hpending : ts.flatMap Thread.pending = t.pending) : NothingLost ⟨s', ts + rest⟩ := by
  have hreceived : received s'.trace = received s.trace ++ [item] :=
    congrArg Stream.received hstream
  have hqueue : s'.messages.queue = queue := congrArg Stream.queue hstream
  have hreceiver : s'.messages.receiver = s.messages.receiver := congrArg Stream.receiver hstream
  refine hi.held hm (congrArg Stream.begun hstream) (congrArg Stream.delivered hstream) hpending ?_
  intro hr
  have hkept : received s.trace ++ s.messages.queue = delivered s.trace :=
    hi.kept (hreceiver ▸ hr)
  rw [hq] at hkept
  rw [hreceived, hqueue, ← hkept, List.append_assoc]
  rfl

end

theorem nothingLost_step (h : Reachable step HasRoom start.config c) (hi : NothingLost c)
    (hs : Step step HasRoom c c') : NothingLost c' := by
  have hcallbacks := callbacksInv_reachable h
  obtain ⟨hpolicy, hn⟩ := hs
  have hm := step_move hn
  rcases hm.flow with ⟨hstream, hpending⟩ | ⟨cb, hstream, ht, hpending, hnet⟩ |
    ⟨item, cb, caller, hstream, rfl, ht, hpending⟩ | ⟨item, queue, hq, hstream, ht, hpending⟩ |
    ⟨queue, hstream, ht, hpending⟩
  · exact hi.quiet hm hstream hpending
  · exact hi.begins hcallbacks hm hstream ht hpending hnet
  · exact hi.delivers hcallbacks hm (hpolicy cb caller rfl) hstream ht hpending
  · exact hi.receives hm hq hstream (hpending.trans ht.symm)
  · -- the consumer is gone
    refine hi.held hm (congrArg Stream.begun hstream) (congrArg Stream.delivered hstream)
      (hpending.trans ht.symm) ?_
    intro hr
    have hreceiver := congrArg Stream.receiver hstream
    exact absurd (hr.symm.trans hreceiver) nofun

/-- **Nothing is lost while the channel has room**: what the consumer has received and what
is queued for it is what the callbacks gave, in their order. -/
theorem nothing_lost (h : Reachable step HasRoom start.config c) : NothingLost c := by
  refine h.invariant (P := NothingLost) ?_ (fun hr hi hs => nothingLost_step hr hi hs)
  refine ⟨rfl, fun _ => ⟨[], rfl, rfl⟩, fun _ => rfl⟩

/-- `HasRoom` as a test. -/
def hasRoom (c : Listed Shared Thread) (t : Thread) (_ : Choice) : Bool :=
  match t with
  | .callback (.sends _) _ =>
    !c.shared.messages.receiver || decide (c.shared.messages.queue.length < Messages.capacity)
  | _ => true

theorem hasRoom_sound (c : Listed Shared Thread) (t : Thread) (ch : Choice)
    (h : hasRoom c t ch = true) : HasRoom c.config t ch := by
  rintro cb caller rfl hreceiver
  change c.shared.messages.receiver = true at hreceiver
  change c.shared.messages.queue.length < Messages.capacity
  change (!c.shared.messages.receiver || _) = true at h
  rw [hreceiver] at h
  simpa using h

/-- The peer sends an empty message, and it is given to the channel. -/
def sends : Schedule := [(.network, [.event (.message none true)] ++ go 4)]

/-- Two messages, one of which is received, and then the connection fails. -/
def receivesAll : Schedule :=
  opens ++ sends ++ [(.socket .idle, [.next])] ++ sends ++
  [(.network, [.event (.failure none (-101))] ++ go 5)]

theorem nothing_lost_receives :
    let c := (Pool.play step hasRoom start receivesAll).config
    received c.shared.trace = [.ok (.binary [])] ∧
      c.shared.messages.queue =
        [.ok (.binary []), .error (.webSocket "WebSocket failed" (-101))] ∧
      NothingLost c := by
  refine ⟨by decide +kernel, by decide +kernel, ?_⟩
  exact nothing_lost (play_reachable hasRoom_sound receivesAll Reachable.start)

/-- The consumer is slow, and the peer has sent 33 messages. -/
def floods : Schedule := opens ++ (List.replicate 33 sends).flatten

theorem message_lost :
    ∃ c, Reachable step (fun _ _ _ => True) start.config c ∧ .socket .idle ∈ c.threads ∧
      c.shared.messages.receiver = true ∧ (delivered c.shared.trace).length = 33 ∧
      received c.shared.trace = [] ∧ c.shared.messages.queue.length = 32 ∧ ¬ NothingLost c := by
  have hrun : let c := (Pool.play step unchecked start floods).config
      .socket .idle ∈ c.threads ∧ c.shared.messages.receiver = true ∧
      (delivered c.shared.trace).length = 33 ∧ received c.shared.trace = [] ∧
      c.shared.messages.queue.length = 32 := by
    decide +kernel
  obtain ⟨hopen, hreceiver, hdelivered, hreceived, hqueue⟩ := hrun
  refine ⟨(Pool.play step unchecked start floods).config,
    play_reachable (fun _ _ _ _ => trivial) floods Reachable.start,
    hopen, hreceiver, hdelivered, hreceived, hqueue, ?_⟩
  intro hi
  have hlength := congrArg List.length (hi.kept hreceiver)
  rw [hreceived, hdelivered, List.nil_append, hqueue] at hlength
  cases hlength

/-! ## The end of the stream -/

/-- `next_message` returns `None`, and does not wait: no sender is left. -/
structure StreamEnds (s : Shared) : Prop where
  /-- No sender is left. -/
  senders : s.messages.senders = 0
  /-- The next call returns `None`. -/
  next : ∃ s', step s (.socket .idle) .next = some (s', [.socket .idle]) ∧
    s'.trace = s.trace ++ [.received none]

/-- The sender of a live context is there. -/
theorem Move.senders (hm : Move s t s' ts) (ht : Stands s t)
    (h : s.context.life = .live → s.messages.senders = 1) (hl : s'.context.life = .live) :
    s'.messages.senders = 1 := by
  have hrelease : s.releaseArc.1.context.life = .live →
      s.context.life = .live ∧ s.releaseArc.1.messages.senders = s.messages.senders := by
    unfold Shared.releaseArc
    split
    · rename_i hlive
      split
      · intro hgone
        cases hgone
      · exact fun _ => ⟨hlive, rfl⟩
    · exact fun hlive => ⟨hlive, rfl⟩
  induction hm with
  | creates => rfl
  | fails => cases hl
  | lets | gives =>
    obtain ⟨hlive, heq⟩ := hrelease hl
    rw [heq]
    exact h hlive
  | _ => exact h hl

theorem senders_reachable (h : Reachable step allowed start.config c)
    (hl : c.shared.context.life = .live) : c.shared.messages.senders = 1 := by
  revert hl
  refine h.invariant (P := fun c => c.shared.context.life = .live →
    c.shared.messages.senders = 1) (fun hl => by cases hl) ?_
  rintro c c' hr hi ⟨_, hn⟩ hl
  exact (step_move hn).senders
    ((ownershipInv_reachable hr).stands _ (Multiset.mem_cons_self _ _)) hi hl

/-- **An opened `WebSocket` never comes to the end of its messages**: when its terminal
callback is over and everything was received, `next_message` waits, and for ever. -/
theorem stream_never_ends (h : Reachable step (fun _ _ _ => True) start.config c)
    (hopen : .socket .idle ∈ c.threads)
    (_hfinished : ∃ result, Event.finished result ∈ c.shared.trace)
    (hqueue : c.shared.messages.queue = []) :
    step c.shared (.socket .idle) .next = none ∧ ¬ StreamEnds c.shared := by
  obtain ⟨-, hlive, -⟩ := ((ownershipInv_reachable h).stands _ hopen).stage rfl
  have hone := senders_reachable h hlive
  have hnone : step c.shared (.socket .idle) .next = none := by
    unfold step socketStep
    rw [hqueue]
    simp [hone]
  refine ⟨hnone, ?_⟩
  intro hends
  obtain ⟨s', hn, -⟩ := hends.next
  rw [hnone] at hn
  cases hn

/-- The peer closes the connection. -/
theorem stream_never_ends_closed :
    let c := (Pool.play step unchecked start (opens ++ closed)).config
    .socket .idle ∈ c.threads ∧ Event.finished (.ok ()) ∈ c.shared.trace ∧
      ¬ StreamEnds c.shared := by
  have hrun : let c := (Pool.play step unchecked start (opens ++ closed)).config
      .socket .idle ∈ c.threads ∧ Event.finished (.ok ()) ∈ c.shared.trace ∧
      c.shared.messages.queue = [] := by
    decide +kernel
  obtain ⟨hopen, hfinished, hqueue⟩ := hrun
  exact ⟨hopen, hfinished, (stream_never_ends (play_reachable (fun _ _ _ _ => trivial)
    (opens ++ closed) Reachable.start) hopen ⟨_, hfinished⟩ hqueue).2⟩

theorem closed_stream_waits :
    ∃ c, Reachable step (fun _ _ _ => True) start.config c ∧ .socket .idle ∈ c.threads ∧
      Event.finished (.ok ()) ∈ c.shared.trace ∧ c.shared.messages.queue = [] ∧
      c.shared.messages.senders = 1 ∧ step c.shared (.socket .idle) .next = none := by
  refine ⟨(Pool.play step unchecked start (opens ++ closed)).config,
    play_reachable (fun _ _ _ _ => trivial) (opens ++ closed) Reachable.start, ?_⟩
  decide +kernel

end TokioCronet.WebSocket
