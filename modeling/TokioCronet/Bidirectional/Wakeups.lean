import TokioCronet.Bidirectional.Side

/-!
# Waking the producer

`enqueue_data` finds the queue full under the lock, stores its waker without the lock
and looks at the queue once more; `complete` and `finish` change the queue under the
lock and take the waker afterwards. The second look is at the counts only. It does not
see that the stream has ended meanwhile, and `finish` leaves the count of writes in
flight as it was.
-/

namespace TokioCronet.Bidirectional

open Pool

variable {cfg : Settings} {s s' : Side} {t : Thread} {ts : List Thread} {rest : Multiset Thread}

/-- `enqueue_data` does not return `Ok(false)` on a stream that has already ended, unless
its waker has been woken or `wake_producer` is still to come. -/
def RechecksInTime (cfg : Settings) : Policy Shared Thread Choice := fun c t _ =>
  ∀ op waker, t = .stream (.recheck op waker) → c.shared.write.state.full cfg = true →
    c.shared.write.state.terminal.isSome = true →
    c.shared.producer.woken = true ∨ 0 < total Thread.wakes c.threads

/-- The queue with the command that the write loop has in its hand. -/
def Side.FullWith (cfg : Settings) (s : Side) (hand : Nat) : Prop :=
  cfg.writeCapacity ≤ s.state.queueDataCount + s.state.inFlightCount + hand

/-- What a producer is owed that was told `Pending`. -/
structure ProducerServed (cfg : Settings) (c : Config Shared Thread) : Prop where
  /-- Its waker has been woken, or it is in the slot: the queue is full and the stream
  has not ended, or `wake_producer` comes next in some thread. -/
  parked : c.shared.producer.parked = true → c.shared.producer.woken = true ∨
    c.shared.write.producerWaker = some c.shared.producer.waker ∧
      (c.shared.write.state.terminal = none ∧
          c.shared.side.FullWith cfg (total Thread.hand c.threads) ∨
        0 < total Thread.wakes c.threads)
  /-- Whoever calls `wake_producer` finds the waker. -/
  wakes : ∀ t s' ts ch, t.wakes = 1 → step cfg c.shared t ch = some (s', ts) →
    c.shared.producer.parked = true → s'.producer.woken = true

/-- The wake-up invariants. -/
structure WakeInv (cfg : Settings) (s : Side) (threads : Multiset Thread) : Prop where
  /-- There is one adapter. -/
  adapts : total Thread.adapts threads ≤ 1
  /-- A poll under way is the one that was begun last. -/
  polling : ∀ t ∈ threads, ∀ stored waker, t.polling = some (stored, waker) →
    s.producer.waker = waker ∧ s.producer.parked = false ∧
      (stored = true → s.waker = some waker ∨ s.producer.woken = true)
  /-- Whoever waits for room was woken, or will be. -/
  parked : s.producer.parked = true → s.producer.woken = true ∨
    s.waker = some s.producer.waker ∧
      (s.state.terminal = none ∧ s.FullWith cfg (total Thread.hand threads) ∨
        0 < total Thread.wakes threads)

theorem polling_adapts {stored : Bool} {waker : Waker} (h : t.polling = some (stored, waker)) :
    t.adapts = 1 := by
  unfold Thread.polling at h
  split at h <;> first | rfl | cases h

/-- Beside the adapter nobody polls. -/
theorem WakeInv.alone (h : WakeInv cfg s (t ::ₘ rest)) (ht : t.adapts = 1) {u : Thread}
    (hu : u ∈ rest) : u.polling = none := by
  cases hp : u.polling with
  | none => rfl
  | some p =>
    have hadapts := polling_adapts (h := hp)
    have hle := add_le_total (w := Thread.adapts) (t := t) hu
    have hone := h.adapts
    omega

theorem adapts_step (h : WakeInv cfg s (t ::ₘ rest))
    (adapts : (ts.map Thread.adapts).sum ≤ t.adapts) : total Thread.adapts (ts + rest) ≤ 1 := by
  have hadapts := h.adapts
  rw [total_cons] at hadapts
  rw [total_add, total_coe]
  omega

/-- A step that leaves the producer and the slot alone, and makes no room. -/
theorem WakeInv.frame (h : WakeInv cfg s (t ::ₘ rest))
    (adapts : (ts.map Thread.adapts).sum ≤ t.adapts)
    (polling : ∀ u ∈ ts, ∀ stored waker, u.polling = some (stored, waker) →
      stored = false ∧ ∃ b, t.polling = some (b, waker))
    (hp : s'.producer = s.producer) (hw : s'.waker = s.waker)
    (room : s.producer.parked = true →
      s.state.terminal = none ∧ s.FullWith cfg (total Thread.hand (t ::ₘ rest)) ∨
        0 < total Thread.wakes (t ::ₘ rest) →
      s'.state.terminal = none ∧ s'.FullWith cfg (total Thread.hand (ts + rest)) ∨
        0 < total Thread.wakes (ts + rest)) : WakeInv cfg s' (ts + rest) := by
  refine ⟨?_, ?_, ?_⟩
  · exact adapts_step h adapts
  · rw [hp, hw]
    intro u hu stored waker hpoll
    rcases Multiset.mem_add.mp hu with hu | hu
    · obtain ⟨rfl, b, hb⟩ := polling u (Multiset.mem_coe.mp hu) stored waker hpoll
      obtain ⟨hwaker, hparked, -⟩ := h.polling t (Multiset.mem_cons_self t rest) b waker hb
      exact ⟨hwaker, hparked, nofun⟩
    · exact h.polling u (Multiset.mem_cons_of_mem hu) stored waker hpoll
  · rw [hp, hw]
    intro hparked
    rcases h.parked hparked with hwoken | ⟨hslot, hroom⟩
    · exact .inl hwoken
    · exact .inr ⟨hslot, room hparked hroom⟩

theorem queueDataCount_data {w : WriteState} {data : Buffer} {eos : Bool}
    {queue : List WriteCommand} (h : w.queue = .data data eos :: queue) :
    w.queueDataCount = { w with queue := queue }.queueDataCount + 1 := by
  rw [WriteState.queueDataCount, h]
  exact List.countP_cons_of_pos rfl

theorem queueDataCount_flush {w : WriteState} {waiter : Waiter}
    {queue : List WriteCommand} (h : w.queue = .flush waiter :: queue) :
    w.queueDataCount = { w with queue := queue }.queueDataCount := by
  rw [WriteState.queueDataCount, h]
  exact List.countP_cons_of_neg (by simp)

theorem queueDataCount_append {w : WriteState} {c : WriteCommand} :
    w.queueDataCount ≤ { w with queue := w.queue ++ [c] }.queueDataCount :=
  (List.sublist_append_left _ _).countP_le

/-- The queue is still as full as it was. -/
theorem room_step
    (h : s.state.terminal = none ∧ s.FullWith cfg (total Thread.hand (t ::ₘ rest)) ∨
      0 < total Thread.wakes (t ::ₘ rest)) (hterm : s'.state.terminal = s.state.terminal)
    (hcount : s.state.queueDataCount + s.state.inFlightCount + t.hand ≤
      s'.state.queueDataCount + s'.state.inFlightCount + (ts.map Thread.hand).sum)
    (hwakes : t.wakes ≤ (ts.map Thread.wakes).sum) :
    s'.state.terminal = none ∧ s'.FullWith cfg (total Thread.hand (ts + rest)) ∨
      0 < total Thread.wakes (ts + rest) := by
  rw [total_cons, total_cons] at h
  rw [total_add, total_coe, total_add, total_coe, hterm]
  rcases h with ⟨hnone, hfull⟩ | hpos
  · refine .inl ⟨hnone, ?_⟩
    unfold Side.FullWith at hfull ⊢
    omega
  · right
    omega

theorem wake_state : s.wake.state = s.state := by
  unfold Side.wake
  split <;> rfl

theorem wake_parked : s.wake.producer.parked = s.producer.parked := by
  unfold Side.wake
  split <;> rfl

theorem wake_waker : s.wake.producer.waker = s.producer.waker := by
  unfold Side.wake
  split <;> rfl

/-- `wake_producer` wakes the waker that it finds. -/
theorem wake_woken (h : s.waker = some s.producer.waker ∨ s.producer.woken = true) :
    s.wake.producer.woken = true := by
  unfold Side.wake
  split
  · rename_i waker hw
    rcases h with h | h
    · rw [h, Option.some.injEq] at hw
      show (_ || waker == s.producer.waker) = true
      rw [← hw, beq_self_eq_true, Bool.or_true]
    · show (s.producer.woken || _) = true
      rw [h, Bool.true_or]
  · rename_i hw
    rcases h with h | h
    · rw [h] at hw
      cases hw
    · exact h

/-- A parked producer has been woken or is in the slot. -/
theorem WakeInv.found {threads : Multiset Thread} (h : WakeInv cfg s threads)
    (hp : s.producer.parked = true) :
    s.waker = some s.producer.waker ∨ s.producer.woken = true := by
  rcases h.parked hp with hwoken | ⟨hslot, -⟩
  · exact .inr hwoken
  · exact .inl hslot

theorem wakeInv_wake (h : WakeInv cfg s (t ::ₘ rest)) (hk : Keeps 1 t ts) :
    WakeInv cfg s.wake (ts + rest) := by
  refine ⟨adapts_step h hk.adapts, ?_, ?_⟩
  · intro u hu stored waker hpoll
    rw [wake_waker, wake_parked]
    rcases Multiset.mem_add.mp hu with hu | hu
    · obtain ⟨rfl, b, hb⟩ := hk.polling u (Multiset.mem_coe.mp hu) stored waker hpoll
      obtain ⟨hwaker, hparked, -⟩ := h.polling t (Multiset.mem_cons_self t rest) b waker hb
      exact ⟨hwaker, hparked, nofun⟩
    · obtain ⟨hwaker, hparked, hstored⟩ :=
        h.polling u (Multiset.mem_cons_of_mem hu) stored waker hpoll
      subst hwaker
      exact ⟨rfl, hparked, fun hst => .inr (wake_woken (hstored hst))⟩
  · rw [wake_parked]
    intro hparked
    exact .inl (wake_woken (h.found hparked))

/-- Where the adapter moves, its poll is the only one. -/
theorem polling_alone {u : Thread} {A : Bool → Waker → Prop} (h : WakeInv cfg s (t ::ₘ rest))
    (ht : t.adapts = 1) (hu : ∀ stored waker, u.polling = some (stored, waker) → A stored waker) :
    ∀ v ∈ (([u] : List Thread) : Multiset Thread) + rest, ∀ stored waker,
      v.polling = some (stored, waker) → A stored waker := by
  intro v hv stored waker hpoll
  rcases Multiset.mem_add.mp hv with hv | hv
  · rw [Multiset.mem_coe, List.mem_singleton] at hv
    subst hv
    exact hu stored waker hpoll
  · rw [h.alone ht hv] at hpoll
    cases hpoll

/-- Threads that do not poll. -/
theorem no_polling (h : ∀ u ∈ ts, u.polling = none) : ∀ u ∈ ts, ∀ stored waker,
    u.polling = some (stored, waker) → stored = false ∧ ∃ b, t.polling = some (b, waker) := by
  intro u hu stored waker hp
  rw [h u hu] at hp
  cases hp

theorem no_polling_one {u : Thread} (h : u.polling = none) : ∀ v ∈ [u], ∀ stored waker,
    v.polling = some (stored, waker) → stored = false ∧ ∃ b, t.polling = some (b, waker) :=
  no_polling (List.forall_mem_singleton.mpr h)

/-- **Every step keeps the wake-up invariants** in which the second look is in time. -/
theorem wakeInv_step (h : WakeInv cfg s (t ::ₘ rest))
    (ha : ∀ op waker, t = .stream (.recheck op waker) → s.state.full cfg = true →
      s.state.terminal.isSome = true →
      s.producer.woken = true ∨ 0 < total Thread.wakes (t ::ₘ rest))
    (hs : SideStep cfg s t ts s') : WakeInv cfg s' (ts + rest) := by
  induction hs with
  | quiet hk =>
    have hwakes : t.wakes ≤ (ts.map Thread.wakes).sum := by
      have := hk.wakes
      omega
    refine h.frame hk.adapts hk.polling rfl rfl fun _ hroom => room_step hroom rfl ?_ hwakes
    rw [hk.hand]
  | wake hk => exact wakeInv_wake h hk
  | @popData epoch data eos queue ht hterm hq hts =>
    subst ht hts
    refine h.frame le_rfl (no_polling_one rfl) rfl rfl fun _ hroom =>
      room_step hroom rfl ?_ le_rfl
    -- the command goes from the queue to the hand of the write loop
    rw [queueDataCount_data hq, Nat.add_right_comm _ 1]
    exact le_rfl
  | @popFlush epoch waiter queue ht hterm hq hts =>
    subst ht hts
    refine h.frame le_rfl (no_polling_one rfl) rfl rfl fun _ hroom =>
      room_step hroom rfl ?_ le_rfl
    rw [queueDataCount_flush hq]
    exact le_rfl
  | push ht hts =>
    subst ht hts
    refine h.frame le_rfl (no_polling_one rfl) rfl rfl fun _ hroom =>
      room_step hroom rfl ?_ le_rfl
    exact le_rfl
  | write ht hts | writeFails ht hts | register ht _ hts =>
    subst ht hts
    exact h.frame le_rfl (no_polling_one rfl) rfl rfl fun _ hroom =>
      room_step hroom rfl le_rfl le_rfl
  | answers ht =>
    obtain ⟨rfl, rfl⟩ | ⟨e, rfl, rfl⟩ := ht
    all_goals
      exact h.frame le_rfl (no_polling_one rfl) rfl rfl fun _ hroom =>
        room_step hroom rfl le_rfl le_rfl
  | calls ht _ hts =>
    subst ht hts
    refine h.frame le_rfl (no_polling ?_) rfl rfl fun _ hroom => room_step hroom rfl le_rfl le_rfl
    exact List.forall_mem_cons.mpr ⟨rfl, List.forall_mem_singleton.mpr rfl⟩
  | complete ht hts =>
    subst ht hts
    refine h.frame le_rfl (no_polling_one rfl) rfl rfl fun _ _ => .inr ?_
    rw [total_add, total_coe]
    exact Nat.lt_add_right _ Nat.zero_lt_one
  | drain ht hts =>
    subst ht hts
    refine h.frame le_rfl (no_polling_one rfl) rfl rfl fun _ _ => .inr ?_
    rw [total_add, total_coe]
    exact Nat.lt_add_right _ Nat.zero_lt_one
  | begins ht hts =>
    subst ht hts
    refine ⟨adapts_step h le_rfl, polling_alone h rfl ?_, nofun⟩
    intro stored waker hpoll
    cases hpoll
    exact ⟨rfl, rfl, nofun⟩
  | accepts ht _ hts =>
    subst ht hts
    obtain ⟨-, hparked, -⟩ := h.polling _ (Multiset.mem_cons_self _ rest) _ _ rfl
    refine h.frame le_rfl (no_polling_one rfl) rfl rfl fun hp => ?_
    rw [hparked] at hp
    cases hp
  | stores ht hts =>
    subst ht hts
    obtain ⟨hwaker, hparked, -⟩ := h.polling _ (Multiset.mem_cons_self _ rest) _ _ rfl
    refine ⟨adapts_step h le_rfl, polling_alone h rfl ?_, fun hp => ?_⟩
    · intro stored waker hpoll
      cases hpoll
      exact ⟨hwaker, hparked, fun _ => .inl rfl⟩
    · rw [hparked] at hp
      cases hp
  | @parks op waker ht hfull hts =>
    subst ht hts
    obtain ⟨hwaker, -, hstored⟩ := h.polling _ (Multiset.mem_cons_self _ rest) _ _ rfl
    refine ⟨adapts_step h le_rfl, polling_alone h rfl nofun, fun _ => ?_⟩
    rcases hstored rfl with hslot | hwoken
    · by_cases hterm : s.state.terminal.isSome = true
      · rcases ha op waker rfl hfull hterm with hwoken | hwakes
        · exact .inl hwoken
        · refine .inr ⟨hwaker ▸ hslot, .inr ?_⟩
          rw [total_add, total_coe]
          rw [total_cons] at hwakes
          exact hwakes
      · rw [Bool.not_eq_true, Option.isSome_eq_false_iff, Option.isNone_iff_eq_none] at hterm
        refine .inr ⟨hwaker ▸ hslot, .inl ⟨hterm, ?_⟩⟩
        exact Nat.le_add_right_of_le (of_decide_eq_true hfull)
    · exact .inl hwoken
  | control ht hts =>
    subst ht hts
    refine h.frame le_rfl (no_polling_one rfl) rfl rfl fun _ hroom =>
      room_step hroom rfl ?_ le_rfl
    exact Nat.add_le_add_right (Nat.add_le_add_right queueDataCount_append _) _
  | notifies ht hts | receives ht hts =>
    subst ht hts
    exact h.frame le_rfl (no_polling_one rfl) rfl rfl fun _ hroom =>
      room_step hroom rfl le_rfl le_rfl

theorem wakeInv_init : WakeInv cfg (Shared.side {}) start.config.threads where
  adapts := by decide
  polling := by
    intro t ht stored waker hpoll
    rw [Listed.config, start, Multiset.mem_coe] at ht
    simp only [List.mem_cons, List.not_mem_nil, or_false] at ht
    rcases ht with rfl | rfl | rfl <;> cases hpoll
  parked := nofun

theorem wakeInv_reachable {c : Config Shared Thread}
    (h : Reachable (step cfg) (RechecksInTime cfg) start.config c) :
    WakeInv cfg c.shared.side c.threads := by
  refine h.invariant (P := fun c => WakeInv cfg c.shared.side c.threads) wakeInv_init ?_
  rintro _ _ - hi ⟨ha, hn⟩
  exact wakeInv_step hi ha (step_side hn)

/-- A thread that wakes the producer does just that. -/
theorem wakes_step {s s' : Shared} {ch : Choice} (ht : t.wakes = 1)
    (h : step cfg s t ch = some (s', ts)) : s'.side = s.side.wake := by
  unfold Thread.wakes at ht
  split at ht
  · cases ch <;> cases h
    exact side_wake
  · cases ch <;> cases h
    exact side_wake
  · cases ht

theorem WakeInv.served {c : Config Shared Thread} (h : WakeInv cfg c.shared.side c.threads) :
    ProducerServed cfg c where
  parked := h.parked
  wakes := by
    intro t s' ts ch ht hn hparked
    have hwoken := wake_woken (h.found hparked)
    rw [← wakes_step ht hn] at hwoken
    exact hwoken

/-- **A producer that was told `Pending` is woken or will be**, in every run in which
`enqueue_data` does not return `Ok(false)` too late; and one step that does leaves a
producer parked on a stream that has ended, whom nobody is about to wake. -/
theorem producer_served {c : Config Shared Thread}
    (h : Reachable (step cfg) (RechecksInTime cfg) start.config c) :
    ProducerServed cfg c ∧
      ∀ t rest ch s' ts, c.threads = t ::ₘ rest → ¬ RechecksInTime cfg c t ch →
        step cfg c.shared t ch = some (s', ts) → ¬ ProducerServed cfg ⟨s', ts + rest⟩ := by
  refine ⟨(wakeInv_reachable h).served, ?_⟩
  intro t rest ch s' ts hc hlate hn hserved
  simp only [RechecksInTime, not_forall, not_or] at hlate
  obtain ⟨op, waker, rfl, hfull, hterm, hwoken, hwakes⟩ := hlate
  cases ch with
  | go =>
    rw [step, streamStep, if_pos hfull, Option.some.injEq, Prod.mk.injEq] at hn
    obtain ⟨rfl, rfl⟩ := hn
    rcases hserved.parked rfl with hw | ⟨-, ⟨hnone, -⟩ | hpos⟩
    · exact hwoken hw
    · rw [show c.shared.write.state.terminal = none from hnone] at hterm
      cases hterm
    · rw [total_add, total_coe] at hpos
      rw [hc, total_cons] at hwakes
      exact hwakes hpos
  | _ => cases hn

/-! ## Runs -/

/-- Threads and the choices that each of them makes, in order. -/
abbrev Schedule := List (Thread × List Choice)

/-- Steps without a choice. -/
def go (n : Nat) : List Choice := List.replicate n .go

/-- `open` succeeds and the stream is ready. -/
def opens : Schedule :=
  [(.openStream .load, go 8 ++ [.result none] ++ go 3),
   (.outside .cronet, [.callback .streamReady]),
   (.callback (.entered .streamReady), go 7),
   (.openStream .ready, go 1)]

/-- `poll_write` is accepted, and the write loop passes it on to the native stream. -/
def writes : Schedule :=
  [(.stream .idle, .pollWrite [1] 0 3 :: go 2),
   (.writer .top, go 7 ++ [.result none] ++ go 1)]

/-- The native stream is cancelled; `finish` runs to its end. -/
def cancels : Schedule :=
  [(.outside .cronet, [.callback .canceled]),
   (.callback (.entered .canceled), go 14)]

/-- No contract. -/
def unchecked : Listed Shared Thread → Thread → Choice → Bool := fun _ _ _ => true

/-- The stream ends while a producer is on its way to the slot. -/
def finishesBetween : Schedule :=
  opens ++ writes ++
  [(.stream .idle, .pollWrite [2] 1 3 :: go 1)] ++
  cancels ++
  [(.stream (.store (.write { pointer := 1, bytes := [2] }) 3), go 2)]

theorem producer_parked :
    ∃ c, Reachable (step { writeCapacity := 1 }) (fun _ _ _ => True) start.config c ∧
      .polled .write .pending ∈ c.shared.trace ∧
      c.shared.producer = { waker := 3, parked := true, woken := false } ∧
      c.shared.write.state.terminal = some (.error .canceled) ∧
      ∀ t ∈ c.threads, t.wakes = 0 := by
  refine ⟨(Pool.play (step { writeCapacity := 1 }) unchecked start finishesBetween).config,
    play_reachable (fun _ _ _ _ => trivial) finishesBetween Reachable.start, ?_⟩
  decide +kernel

/-- `RechecksInTime` as a test. -/
def rechecksInTime (cfg : Settings) (c : Listed Shared Thread) (t : Thread) (_ : Choice) : Bool :=
  match t with
  | .stream (.recheck _ _) =>
    !c.shared.write.state.full cfg || !c.shared.write.state.terminal.isSome ||
      c.shared.producer.woken || decide (0 < (c.threads.map Thread.wakes).sum)
  | _ => true

theorem rechecksInTime_sound (c : Listed Shared Thread) (t : Thread) (ch : Choice)
    (h : rechecksInTime cfg c t ch = true) : RechecksInTime cfg c.config t ch := by
  rintro op waker rfl hfull hterm
  have hfull' : c.shared.write.state.full cfg = true := hfull
  have hterm' : c.shared.write.state.terminal.isSome = true := hterm
  rw [rechecksInTime, hfull', hterm'] at h
  rw [Listed.config, total_coe]
  simpa using h

/-- The producer finds the queue full, and the write in flight is completed. -/
def completesAfter : Schedule :=
  opens ++ writes ++
  [(.stream .idle, .pollWrite [2] 1 3 :: go 3),
   (.outside .cronet, [.callback (.writeCompleted 0)]),
   (.callback (.entered (.writeCompleted 0)), go 3)]

theorem producer_served_completes :
    let c := (Pool.play (step { writeCapacity := 1 }) (rechecksInTime { writeCapacity := 1 })
      start completesAfter).config
    c.shared.producer = { waker := 3, parked := true, woken := true } ∧
      ProducerServed { writeCapacity := 1 } c := by
  refine ⟨by decide +kernel, ?_⟩
  exact (producer_served (play_reachable rechecksInTime_sound completesAfter Reachable.start)).1

end TokioCronet.Bidirectional
