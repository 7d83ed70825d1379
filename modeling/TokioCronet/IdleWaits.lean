import TokioCronet.Lib.IdleWait
import TokioCronet.Bidirectional.Side
import TokioCronet.Engine.Admission
import TokioCronet.Request.Lifetime

/-!
# The idle waits

`EngineInner::shutdown` waits for the operations to be over, `wait_idle` for the requests
to be finished, and the cleanup tasks of requests and of bidirectional streams for their
callbacks to be over. Each waits for a counter with a `Notify` of its own.
-/

namespace TokioCronet

open Pool

/-- A waiter whose counter is zero and that no wake-up was delivered to is woken by the next
step of some thread. -/
def Woken {σ τ ι : Type*} (step : Program σ τ ι) (go : ι) (w : IdleWait σ τ) (c : Config σ τ) :
    Prop :=
  ∀ t ∈ c.threads, w.parked t = some (w.epoch c.shared) → w.count c.shared = 0 →
    ∃ u ∈ c.threads, ∃ s' ts, step c.shared u go = some (s', ts) ∧
      w.epoch c.shared < w.epoch s'

theorem woken_of {σ τ ι : Type*} {step : Program σ τ ι} {go : ι} {w : IdleWait σ τ}
    {c : Config σ τ} (hi : w.Inv c)
    (hwakes : ∀ s t, w.wakes t = true →
      ∃ s' ts, step s t go = some (s', ts) ∧ w.epoch s < w.epoch s') : Woken step go w c := by
  intro t ht hparked hzero
  obtain ⟨u, hu, hu'⟩ := hi.woken t ht hparked hzero
  exact ⟨u, hu, hwakes c.shared u hu'⟩

/-! ## The engine -/

namespace Engine

variable {κ : Type} {s s' : Shared} {t : Thread κ} {ch : Choice κ} {ts : List (Thread κ)}

/-- What a shutdown that waits for the operations has seen. -/
def Thread.awaitsActive : Thread κ → Option Nat
  | .recheckActive epoch | .parkActive epoch => some epoch
  | _ => none

/-- What a shutdown that sleeps for the operations has seen. -/
def Thread.parkedActive : Thread κ → Option Nat
  | .parkActive epoch => some epoch
  | _ => none

/-- Who wakes those that wait for the operations. -/
def Thread.wakesIdle : Thread κ → Bool
  | .notifyIdle => true
  | _ => false

/-- What a shutdown that waits for the requests has seen. -/
def Thread.awaitsIdle : Thread κ → Option Nat
  | .checkIdle epoch | .parkIdle epoch => some epoch
  | _ => none

/-- What a shutdown that sleeps for the requests has seen. -/
def Thread.parkedIdle : Thread κ → Option Nat
  | .parkIdle epoch => some epoch
  | _ => none

/-- `EngineInner::shutdown` on `active`. -/
def activeWait (κ : Type) : IdleWait Shared (Thread κ) where
  count s := s.active
  epoch s := s.idleEpoch
  wakes := Thread.wakesIdle
  armed := Thread.awaitsActive
  parked := Thread.parkedActive
  parked_armed t e h := by
    cases t with
    | parkActive epoch => exact h
    | _ => cases h

/-- `wait_idle` on `pending`; `finish_one` wakes in the lock section that counts down. -/
def finishedWait (κ : Type) : IdleWait Shared (Thread κ) where
  count s := s.finished.pending
  epoch s := s.finished.epoch
  wakes _ := false
  armed := Thread.awaitsIdle
  parked := Thread.parkedIdle
  parked_armed t e h := by
    cases t with
    | parkIdle epoch => exact h
    | _ => cases h

theorem finishOne_keeps {threads : List (Thread κ)} (ht : ∀ u ∈ threads, u.awaitsIdle = none) :
    (finishedWait κ).Keeps s t { s with finished := s.finished.finishOne } threads := by
  have harmed : threads.filterMap (finishedWait κ).armed = [] :=
    List.filterMap_eq_nil_iff.mpr ht
  by_cases hone : s.finished.pending = 1
  · refine .wake ?_ harmed
    show s.finished.epoch < s.finished.finishOne.epoch
    rw [FinishedContext.finishOne, if_neg (by omega), if_pos hone]
    exact Nat.lt_succ_self _
  · have hepoch : s.finished.finishOne.epoch = s.finished.epoch := by
      unfold FinishedContext.finishOne
      split_ifs <;> rfl
    refine .quiet hepoch ?_ rfl harmed
    intro hne
    show s.finished.finishOne.pending ≠ 0
    change s.finished.pending ≠ 0 at hne
    rw [FinishedContext.finishOne_pending]
    omega

theorem active_keeps (h : step s t ch = some (s', ts)) : (activeWait κ).Keeps s t s' ts := by
  revert h
  fun_cases step s t ch <;> first | exact of_none | apply of_some
  -- `begin_operation` is admitted
  case case10 => exact .quiet rfl (fun _ => Nat.succ_ne_zero _) rfl rfl
  -- an operation is dropped
  case case21 =>
    split_ifs with hone
    · exact .drops rfl ⟨_, List.mem_singleton_self _, rfl⟩ rfl
    · refine .quiet rfl (fun hne => ?_) rfl rfl
      change s.active ≠ 0 at hne
      show s.active - 1 ≠ 0
      omega
  case case22 => exact .wake (Nat.lt_succ_self _) rfl
  -- the wait
  case case40 => exact .arms rfl (fun e he => .inr (Option.some.inj he).symm) fun _ => rfl
  case case41 =>
    split_ifs with hzero
    · exact .quiet rfl id rfl rfl
    · exact .arms rfl (fun e he => .inl he) fun h => absurd h hzero
  all_goals first
    | exact .quiet rfl id rfl rfl
    | exact .quiet rfl id rfl (by split_ifs <;> rfl)

theorem take_keeps {pointers : List Nat} {f : FinishedContext} {r : List (Nat × String) × Bool}
    (h : s.finished.take pointers = (f, r)) :
    f.epoch = s.finished.epoch ∧ f.pending = s.finished.pending := by
  cases h
  exact ⟨rfl, rfl⟩

theorem finished_keeps (h : step s t ch = some (s', ts)) :
    (finishedWait κ).Keeps s t s' ts := by
  revert h
  fun_cases step s t ch <;> first | exact of_none | apply of_some
  -- a request is begun
  case case16 => exact .quiet rfl (fun _ => Nat.succ_ne_zero _) rfl rfl
  -- `finish_one`
  case case19 => exact finishOne_keeps (by simp [Thread.awaitsIdle])
  case case30 => exact finishOne_keeps (by simp)
  case case28 htake | case29 htake =>
    obtain ⟨hepoch, hpending⟩ := take_keeps htake
    refine .quiet hepoch (fun hne => ?_) rfl rfl
    exact hpending.trans_ne hne
  -- the wait
  case case45 => exact .arms rfl (fun e he => .inr (Option.some.inj he).symm) fun _ => rfl
  case case46 =>
    split_ifs with hzero
    · exact .quiet rfl id rfl rfl
    · exact .arms rfl (fun e he => .inl he) fun h => absurd h hzero
  all_goals first
    | exact .quiet rfl id rfl rfl
    | exact .quiet rfl id rfl (by split_ifs <;> rfl)

end Engine

/-! ## Requests -/

namespace Request

variable {cfg : Settings} {s s' : Shared} {t : Thread} {ch : Choice} {ts : List Thread}

/-- What the cleanup of a request that waits for the callbacks has seen. -/
def Thread.awaitsCallbacks : Thread → Option Nat
  | .cleanup (.recheck epoch) | .cleanup (.park epoch) => some epoch
  | _ => none

/-- What the cleanup of a request that sleeps for the callbacks has seen. -/
def Thread.parkedCallbacks : Thread → Option Nat
  | .cleanup (.park epoch) => some epoch
  | _ => none

/-- Who wakes the cleanup of a request. -/
def Thread.wakesCallbacks : Thread → Bool
  | .callback .notify => true
  | _ => false

/-- `wait_for_callbacks` of a request. -/
def callbacksWait : IdleWait Shared Thread where
  count s := s.context.callbackCount
  epoch s := s.context.idleEpoch
  wakes := Thread.wakesCallbacks
  armed := Thread.awaitsCallbacks
  parked := Thread.parkedCallbacks
  parked_armed t e h := by
    unfold Thread.parkedCallbacks at h
    split at h
    · exact h
    · cases h

theorem quiet_releaseArc (hwakes : t.wakesCallbacks = false)
    (harmed : ts.filterMap Thread.awaitsCallbacks = []) :
    callbacksWait.Keeps s t s.releaseArc ts := by
  refine .quiet ?_ ?_ hwakes harmed
  · show s.releaseArc.context.idleEpoch = s.context.idleEpoch
    unfold Shared.releaseArc
    split_ifs <;> rfl
  · show s.context.callbackCount ≠ 0 → s.releaseArc.context.callbackCount ≠ 0
    rw [Shared.releaseArc_callbackCount]
    exact id

theorem after_unarmed (op : GatedOp) (e : Option Error) :
    (op.after e).filterMap Thread.awaitsCallbacks = [] := by
  fun_cases GatedOp.after op e <;> rfl

theorem runnable_waits {stage : Stage} {r : Runnable}
    (h : runnableStep s stage r ch = some (s', ts)) :
    callbacksWait.Keeps s (.runnable stage r) s' ts := by
  revert h
  fun_cases runnableStep s stage r ch <;> first | exact of_none | apply of_some
  -- the callback takes its lease
  case case4 => exact .quiet rfl (fun _ => Nat.succ_ne_zero _) rfl (by cases r <;> rfl)
  case case5 => exact .quiet rfl id rfl (by cases r <;> rfl)
  all_goals exact .quiet rfl id rfl rfl

theorem callback_waits {p : Callback} (h : callbackStep cfg s p ch = some (s', ts)) :
    callbacksWait.Keeps s (.callback p) s' ts := by
  revert h
  fun_cases callbackStep cfg s p ch <;> first | exact of_none | apply of_some
  -- the lease is dropped
  case case19 => exact .drops rfl ⟨_, List.mem_singleton_self _, rfl⟩ rfl
  case case20 hone =>
    refine .quiet rfl (fun hne => ?_) rfl rfl
    change s.context.callbackCount ≠ 0 at hne
    show s.context.callbackCount - 1 ≠ 0
    omega
  case case21 => exact .wake (Nat.lt_succ_self _) rfl
  all_goals exact .quiet rfl id rfl rfl

theorem read_waits {p : Read} (h : readStep s p ch = some (s', ts)) :
    callbacksWait.Keeps s (.read p) s' ts := by
  revert h
  fun_cases readStep s p ch <;> first | exact of_none | apply of_some
  case case2 site _ => exact .quiet rfl id rfl (by cases site <;> rfl)
  case case6 site => exact .quiet rfl id rfl (by cases site <;> rfl)
  all_goals exact .quiet rfl id rfl rfl

theorem cleanup_waits {p : Cleanup} (h : cleanupStep s p ch = some (s', ts)) :
    callbacksWait.Keeps s (.cleanup p) s' ts := by
  revert h
  fun_cases cleanupStep s p ch <;> first | exact of_none | apply of_some
  all_goals first
    | exact .quiet rfl id rfl rfl
    | exact quiet_releaseArc rfl rfl
    | exact .arms rfl (fun e he => .inr (Option.some.inj he).symm) fun _ => rfl
    | exact .arms rfl (fun e he => .inl he) fun h => absurd h ‹_›

theorem callbacks_keeps (h : step cfg s t ch = some (s', ts)) :
    callbacksWait.Keeps s t s' ts := by
  cases t with
  | runnable stage r => exact runnable_waits h
  | callback p => exact callback_waits h
  | read p => exact read_waits h
  | cleanup p => exact cleanup_waits h
  | outside who =>
    revert h
    show outsideStep s who ch = _ → _
    fun_cases outsideStep s who ch <;> first | exact of_none | apply of_some
    all_goals exact .quiet rfl id rfl rfl
  | start p =>
    revert h
    show startStep s p ch = _ → _
    fun_cases startStep s p ch <;> first | exact of_none | apply of_some
    all_goals exact .quiet rfl id rfl rfl
  | shutdown p =>
    revert h
    show shutdownStep s p ch = _ → _
    fun_cases shutdownStep s p ch <;> first | exact of_none | apply of_some
    all_goals exact .quiet rfl id rfl rfl
  | control p =>
    revert h
    show controlStep s p ch = _ → _
    fun_cases controlStep s p ch <;> first | exact of_none | apply of_some
    all_goals first
      | exact .quiet rfl id rfl rfl
      | exact .quiet rfl id rfl (after_unarmed _ _)
  | terminal p =>
    revert h
    show terminalStep s p ch = _ → _
    fun_cases terminalStep s p ch <;> first | exact of_none | apply of_some
    all_goals exact .quiet rfl id rfl rfl
  | task p =>
    revert h
    show taskStep cfg s p ch = _ → _
    fun_cases taskStep cfg s p ch <;> first | exact of_none | apply of_some
    all_goals first
      | exact .quiet rfl id rfl rfl
      | exact quiet_releaseArc rfl rfl
  | upload p =>
    revert h
    show uploadStep cfg s p ch = _ → _
    fun_cases uploadStep cfg s p ch <;> first | exact of_none | apply of_some
    all_goals exact .quiet rfl id rfl rfl
  | execute p =>
    revert h
    show executeStep s p ch = _ → _
    fun_cases executeStep s p ch <;> first | exact of_none | apply of_some
    all_goals exact .quiet rfl id rfl rfl

end Request

/-! ## Bidirectional streams -/

namespace Bidirectional

variable {cfg : Settings} {s s' : Shared} {t : Thread} {ch : Choice} {ts : List Thread}

/-- What the cleanup of a stream that waits for the callbacks has seen. -/
def Thread.awaitsCallbacks : Thread → Option Nat
  | .cleanup (.recheck epoch) | .cleanup (.park epoch) => some epoch
  | _ => none

/-- What the cleanup of a stream that sleeps for the callbacks has seen. -/
def Thread.parkedCallbacks : Thread → Option Nat
  | .cleanup (.park epoch) => some epoch
  | _ => none

/-- Who wakes the cleanup of a stream. -/
def Thread.wakesCallbacks : Thread → Bool
  | .callback .notify => true
  | _ => false

/-- `wait_for_callbacks` of a bidirectional stream. -/
def callbacksWait : IdleWait Shared Thread where
  count s := s.context.callbackCount
  epoch s := s.context.idleEpoch
  wakes := Thread.wakesCallbacks
  armed := Thread.awaitsCallbacks
  parked := Thread.parkedCallbacks
  parked_armed t e h := by
    unfold Thread.parkedCallbacks at h
    split at h
    · exact h
    · cases h

theorem quiet_releaseArc (hwakes : t.wakesCallbacks = false)
    (harmed : ts.filterMap Thread.awaitsCallbacks = []) :
    callbacksWait.Keeps s t s.releaseArc ts := by
  have hcontext : s.releaseArc.context.idleEpoch = s.context.idleEpoch ∧
      s.releaseArc.context.callbackCount = s.context.callbackCount := by
    unfold Shared.releaseArc
    split_ifs <;> exact ⟨rfl, rfl⟩
  exact .quiet hcontext.1 hcontext.2.trans_ne hwakes harmed

theorem after_unarmed (op : GatedOp) (e : Option Error) :
    (op.after e).filterMap Thread.awaitsCallbacks = [] := by
  unfold GatedOp.after
  split <;> rfl

theorem after_silent (who : Finisher) (result : Result Unit) :
    [who.after result].filterMap Thread.awaitsCallbacks = [] := by
  cases who <;> rfl

theorem quiet_wake (hwakes : t.wakesCallbacks = false)
    (harmed : ts.filterMap Thread.awaitsCallbacks = []) : callbacksWait.Keeps s t s.wake ts := by
  have hcontext : s.wake.context.idleEpoch = s.context.idleEpoch ∧
      s.wake.context.callbackCount = s.context.callbackCount := by
    unfold Shared.wake
    split <;> exact ⟨rfl, rfl⟩
  exact .quiet hcontext.1 hcontext.2.trans_ne hwakes harmed

theorem callback_waits {p : InCallback} (h : callbackStep cfg s p ch = some (s', ts)) :
    callbacksWait.Keeps s (.callback p) s' ts := by
  revert h
  fun_cases callbackStep cfg s p ch <;> first | exact of_none | apply of_some
  -- the callback takes its lease
  case case1 c => exact .quiet rfl (fun _ => Nat.succ_ne_zero _) rfl (by cases c <;> rfl)
  -- the lease is dropped
  case case20 => exact .drops rfl ⟨_, List.mem_singleton_self _, rfl⟩ rfl
  case case21 hone =>
    refine .quiet rfl (fun hne => ?_) rfl rfl
    change s.context.callbackCount ≠ 0 at hne
    show s.context.callbackCount - 1 ≠ 0
    omega
  case case22 => exact .wake (Nat.lt_succ_self _) rfl
  all_goals first
    | exact .quiet rfl id rfl rfl
    | exact quiet_wake rfl rfl

theorem cleanup_waits {p : Cleanup} (h : cleanupStep s p ch = some (s', ts)) :
    callbacksWait.Keeps s (.cleanup p) s' ts := by
  revert h
  fun_cases cleanupStep s p ch <;> first | exact of_none | apply of_some
  all_goals first
    | exact .quiet rfl id rfl rfl
    | exact quiet_releaseArc rfl rfl
    | exact .arms rfl (fun e he => .inr (Option.some.inj he).symm) fun _ => rfl
    | exact .arms rfl (fun e he => .inl he) fun h => absurd h ‹_›

theorem callbacks_keeps (h : step cfg s t ch = some (s', ts)) :
    callbacksWait.Keeps s t s' ts := by
  cases t with
  | callback p => exact callback_waits h
  | cleanup p => exact cleanup_waits h
  | outside who =>
    revert h
    show outsideStep s who ch = _ → _
    fun_cases outsideStep s who ch <;> intro h
    case case1 c _ =>
      obtain ⟨native, -, heq⟩ := Option.map_eq_some_iff.mp h
      cases heq
      exact .quiet rfl id rfl rfl
    all_goals
      cases h
      try exact .quiet rfl id rfl rfl
  | openStream p =>
    revert h
    show openStep cfg s p ch = _ → _
    fun_cases openStep cfg s p ch <;> first | exact of_none | apply of_some
    all_goals exact .quiet rfl id rfl rfl
  | shutdown p =>
    revert h
    show shutdownStep s p ch = _ → _
    fun_cases shutdownStep s p ch <;> first | exact of_none | apply of_some
    all_goals exact .quiet rfl id rfl rfl
  | control p =>
    revert h
    show controlStep s p ch = _ → _
    fun_cases controlStep s p ch <;> first | exact of_none | apply of_some
    all_goals first
      | exact .quiet rfl id rfl rfl
      | exact .quiet rfl id rfl (after_unarmed _ _)
  | terminal p =>
    revert h
    show terminalStep s p ch = _ → _
    fun_cases terminalStep s p ch <;> first | exact of_none | apply of_some
    all_goals exact .quiet rfl id rfl rfl
  | finish p =>
    revert h
    show finishStep s p ch = _ → _
    fun_cases finishStep s p ch <;> first | exact of_none | apply of_some
    all_goals first
      | exact .quiet rfl id rfl rfl
      | exact quiet_wake rfl rfl
      | exact .quiet rfl id rfl (after_silent _ _)
  | task p =>
    revert h
    show taskStep cfg s p ch = _ → _
    fun_cases taskStep cfg s p ch <;> first | exact of_none | apply of_some
    all_goals first
      | exact .quiet rfl id rfl rfl
      | exact quiet_releaseArc rfl rfl
  | writer p =>
    revert h
    show writerStep s p ch = _ → _
    fun_cases writerStep s p ch <;> first | exact of_none | apply of_some
    all_goals exact .quiet rfl id rfl rfl
  | stream p =>
    revert h
    show streamStep cfg s p ch = _ → _
    fun_cases streamStep cfg s p ch <;> first | exact of_none | apply of_some
    all_goals exact .quiet rfl id rfl rfl

end Bidirectional

/-- **No wake-up is lost**: a waiter that is parked while its counter is zero has been woken,
or is woken by the next step of a thread that is not itself waiting. `pending` is never zero
before the wake-up. -/
theorem no_wakeup_lost :
    (∀ (κ : Type) (allowed : Policy Engine.Shared (Engine.Thread κ) (Engine.Choice κ))
      (c : Config Engine.Shared (Engine.Thread κ)),
      Reachable Engine.step allowed Engine.start.config c →
        Woken Engine.step .go (Engine.activeWait κ) c ∧
          Woken Engine.step .go (Engine.finishedWait κ) c) ∧
    (∀ (cfg : Request.Settings)
      (allowed : Policy Request.Shared Request.Thread Request.Choice)
      (c : Config Request.Shared Request.Thread),
      Reachable (Request.step cfg) allowed Request.start.config c →
        Woken (Request.step cfg) .go Request.callbacksWait c) ∧
    (∀ (cfg : Bidirectional.Settings)
      (allowed : Policy Bidirectional.Shared Bidirectional.Thread Bidirectional.Choice)
      (c : Config Bidirectional.Shared Bidirectional.Thread),
      Reachable (Bidirectional.step cfg) allowed Bidirectional.start.config c →
        Woken (Bidirectional.step cfg) .go Bidirectional.callbacksWait c) := by
  refine ⟨fun κ allowed c h => ⟨?_, ?_⟩, fun cfg allowed c h => ?_, fun cfg allowed c h => ?_⟩
  · refine woken_of (IdleWait.inv_reachable Engine.active_keeps ?_ h) ?_
    · intro t ht
      rcases List.mem_pair.mp (Multiset.mem_coe.mp ht) with rfl | rfl <;> rfl
    · intro s t ht
      cases t with
      | notifyIdle => exact ⟨_, _, rfl, Nat.lt_succ_self _⟩
      | _ => cases ht
  · refine woken_of (IdleWait.inv_reachable Engine.finished_keeps ?_ h) ?_
    · intro t ht
      rcases List.mem_pair.mp (Multiset.mem_coe.mp ht) with rfl | rfl <;> rfl
    · intro s t ht
      cases ht
  · refine woken_of (IdleWait.inv_reachable Request.callbacks_keeps ?_ h) ?_
    · intro t ht
      have hstart : t ∈ Request.start.threads := Multiset.mem_coe.mp ht
      simp only [Request.start, List.mem_cons, List.not_mem_nil, or_false] at hstart
      rcases hstart with rfl | rfl | rfl <;> rfl
    · intro s t ht
      change t.wakesCallbacks = true at ht
      unfold Request.Thread.wakesCallbacks at ht
      split at ht
      · exact ⟨_, _, rfl, Nat.lt_succ_self _⟩
      · cases ht
  · refine woken_of (IdleWait.inv_reachable Bidirectional.callbacks_keeps ?_ h) ?_
    · intro t ht
      have hstart : t ∈ Bidirectional.start.threads := Multiset.mem_coe.mp ht
      simp only [Bidirectional.start, List.mem_cons, List.not_mem_nil, or_false] at hstart
      rcases hstart with rfl | rfl | rfl <;> rfl
    · intro s t ht
      change t.wakesCallbacks = true at ht
      unfold Bidirectional.Thread.wakesCallbacks at ht
      split at ht
      · exact ⟨_, _, rfl, Nat.lt_succ_self _⟩
      · cases ht

/-- `shutdown` is parked while the last operation has counted down and not woken yet. -/
def parksInTime : List (Engine.Thread Unit × List (Engine.Choice Unit)) :=
  [(.handle, [.beginOperation ()]),
   (.beginLoad (), List.replicate 6 .go ++ [.keep]),
   (.handle, [.shutdown]),
   (.shutdownLock, List.replicate 7 .go),
   (.operation, List.replicate 2 .go)]

theorem no_wakeup_lost_in_time :
    let c := Pool.play Engine.step (fun _ _ _ => true) Engine.start parksInTime
    (.parkActive 0 ∈ c.threads ∧ c.shared.active = 0 ∧ c.shared.idleEpoch = 0) ∧
      ∃ u ∈ c.config.threads, ∃ s' ts, Engine.step c.config.shared u .go = some (s', ts) ∧
        c.config.shared.idleEpoch < s'.idleEpoch := by
  intro c
  have hc : .parkActive 0 ∈ c.threads ∧ c.shared.active = 0 ∧ c.shared.idleEpoch = 0 := by
    decide +kernel
  have hreach : Reachable Engine.step (fun _ _ _ => True) Engine.start.config c.config :=
    play_reachable (fun _ _ _ _ => trivial) parksInTime Reachable.start
  clear_value c
  refine ⟨hc, ?_⟩
  refine (no_wakeup_lost.1 Unit _ c.config hreach).1 (.parkActive 0) hc.1 ?_ hc.2.1
  exact congrArg some hc.2.2.symm

end TokioCronet
