import TokioCronet.Bidirectional.Wakeups

/-!
# Answering flushes

The sender of a flush goes from the adapter into the command queue, from there through
the write loop, and if writes are in flight into the list of waiters. `finish` answers
all that it finds. What comes after it has to see that the stream has ended:
`enqueue_control` looks for an error only, and the write loop does not look again
between the native flush and the list of waiters.
-/

namespace TokioCronet.Bidirectional

open Pool

variable {cfg : Settings} {s s' : Side} {t : Thread} {ts : List Thread} {rest : Multiset Thread}

/-- No flush is enqueued after the stream has ended with `Ok`, and the write loop does
not come to the list of waiters after the stream has ended, unless no write is in
flight. -/
def FlushesInTime : Policy Shared Thread Choice := fun c t _ =>
  (∀ op waiter, t = .stream (.control op waiter) →
    c.shared.write.state.terminal ≠ some (.ok ())) ∧
  ∀ waiter, t = .writer (.register waiter) → c.shared.write.state.terminal.isSome = true →
    c.shared.write.state.inFlightCount = 0

/-- Nobody is left waiting on a stream that has ended. -/
structure FlushesAnswered (c : Config Shared Thread) : Prop where
  /-- The queue has no flush. -/
  queue : c.shared.write.state.terminal.isSome = true →
    c.shared.write.state.queuedFlushes = []
  /-- No flush waits for completions. -/
  waiters : c.shared.write.state.terminal.isSome = true →
    c.shared.write.state.flushWaiters = []
  /-- The flush that the adapter waits for has its answer, or the write loop is about to
  give it. -/
  receiver : c.shared.write.state.terminal.isSome = true → ∀ waiter,
    c.shared.adapter.flushReceiver = some waiter →
      (c.shared.answerTo waiter).isSome = true ∨ 0 < total (Thread.flushing waiter) c.threads

/-- Where the sender of a flush is. -/
def Tracked (s : Side) (threads : Multiset Thread) (waiter : Waiter) : Prop :=
  waiter ∈ s.answered ∨ waiter ∈ s.state.queuedFlushes ∨ waiter ∈ s.state.flushWaiters ∨
    0 < total (Thread.flushing waiter) threads

/-- The flush invariants. -/
structure FlushInv (s : Side) (threads : Multiset Thread) : Prop where
  /-- A write side that has ended keeps no flush. -/
  ended : s.state.terminal.isSome = true →
    s.state.queuedFlushes = [] ∧ s.state.flushWaiters = []
  /-- A receiver that somebody has will be answered. -/
  tracked : ∀ waiter, s.receiver = some waiter ∨ (∃ t ∈ threads, t.awaits = some waiter) →
    Tracked s threads waiter

theorem queuedFlushes_data {w : WriteState} {data : Buffer} {eos : Bool}
    {queue : List WriteCommand} (h : w.queue = WriteCommand.data data eos :: queue) :
    w.queuedFlushes = { w with queue := queue }.queuedFlushes := by
  rw [WriteState.queuedFlushes, h]
  exact List.filterMap_cons_none rfl

theorem queuedFlushes_flush {w : WriteState} {waiter : Waiter} {queue : List WriteCommand}
    (h : w.queue = WriteCommand.flush waiter :: queue) :
    w.queuedFlushes = waiter :: { w with queue := queue }.queuedFlushes := by
  rw [WriteState.queuedFlushes, h]
  exact List.filterMap_cons_some rfl

theorem queuedFlushes_append_data {w : WriteState} {data : Buffer} {eos : Bool} :
    { w with queue := w.queue ++ [WriteCommand.data data eos] }.queuedFlushes =
      w.queuedFlushes := by
  rw [WriteState.queuedFlushes, List.filterMap_append]
  exact List.append_nil _

theorem queuedFlushes_append_flush {w : WriteState} {waiter : Waiter} :
    { w with queue := w.queue ++ [WriteCommand.flush waiter] }.queuedFlushes =
      w.queuedFlushes ++ [waiter] := by
  rw [WriteState.queuedFlushes, List.filterMap_append]
  rfl

theorem remove_queuedFlushes {w : WriteState} {pointer : Nat} :
    (w.remove pointer).queuedFlushes = w.queuedFlushes := by
  unfold WriteState.remove
  split <;> rfl

theorem remove_terminal {w : WriteState} {pointer : Nat} :
    (w.remove pointer).terminal = w.terminal := by
  unfold WriteState.remove
  split <;> rfl

theorem wake_answered : s.wake.answered = s.answered := by
  unfold Side.wake
  split <;> rfl

theorem wake_receiver : s.wake.receiver = s.receiver := by
  unfold Side.wake
  split <;> rfl

/-- A step that moves senders along, if it moves any. -/
theorem tracked_move {waiter : Waiter} (h : Tracked s (t ::ₘ rest) waiter)
    (ha : waiter ∈ s.answered → waiter ∈ s'.answered)
    (hq : waiter ∈ s.state.queuedFlushes → Tracked s' (ts + rest) waiter)
    (hw : waiter ∈ s.state.flushWaiters → Tracked s' (ts + rest) waiter)
    (hown : 0 < t.flushing waiter → Tracked s' (ts + rest) waiter) :
    Tracked s' (ts + rest) waiter := by
  rcases h with h | h | h | h
  · exact .inl (ha h)
  · exact hq h
  · exact hw h
  · by_cases ht : 0 < t.flushing waiter
    · exact hown ht
    · rw [total_cons] at h
      refine .inr (.inr (.inr ?_))
      rw [total_add]
      omega

/-- A step that moves none. -/
theorem tracked_same {waiter : Waiter} (h : Tracked s (t ::ₘ rest) waiter)
    (ha : s'.answered = s.answered) (hq : s'.state.queuedFlushes = s.state.queuedFlushes)
    (hw : s'.state.flushWaiters = s.state.flushWaiters)
    (hown : t.flushing waiter = (ts.map (Thread.flushing waiter)).sum) :
    Tracked s' (ts + rest) waiter := by
  refine tracked_move h (fun hm => ha ▸ hm) (fun hm => .inr (.inl (hq ▸ hm)))
    (fun hm => .inr (.inr (.inl (hw ▸ hm)))) fun ht => .inr (.inr (.inr ?_))
  rw [total_add, total_coe, ← hown]
  exact Nat.lt_add_right _ ht

theorem eq_of_flushing {waiter w : Waiter} (h : 0 < if w = waiter then 1 else 0) : w = waiter := by
  split_ifs at h with heq
  · exact heq
  · exact absurd h (lt_irrefl 0)

/-- **No step loses the sender of a flush.** -/
theorem tracked_step {waiter : Waiter} (h : Tracked s (t ::ₘ rest) waiter)
    (hs : SideStep cfg s t ts s') : Tracked s' (ts + rest) waiter := by
  induction hs with
  | quiet hk => exact tracked_same h rfl rfl rfl (hk.flushing waiter).symm
  | wake hk =>
    refine tracked_same h wake_answered ?_ ?_ (hk.flushing waiter).symm
    · rw [wake_state]
    · rw [wake_state]
  | popData ht _ hq hts =>
    subst ht hts
    exact tracked_same h rfl (queuedFlushes_data hq).symm rfl rfl
  | @popFlush epoch w queue ht _ hq hts =>
    subst ht hts
    refine tracked_move h id (fun hm => ?_) (fun hm => .inr (.inr (.inl hm))) nofun
    rw [queuedFlushes_flush hq, List.mem_cons] at hm
    rcases hm with rfl | hm
    · refine .inr (.inr (.inr ?_))
      rw [total_add, total_coe]
      refine Nat.lt_add_right _ ?_
      show 0 < (if waiter = waiter then 1 else 0) + 0
      rw [if_pos rfl]
      exact Nat.zero_lt_one
    · exact .inr (.inl hm)
  | push ht hts | write ht hts | writeFails ht hts | begins ht hts | stores ht hts
  | notifies ht hts | receives ht hts =>
    subst ht hts
    exact tracked_same h rfl rfl rfl rfl
  | calls ht _ hts | parks ht _ hts =>
    subst ht hts
    exact tracked_same h rfl rfl rfl rfl
  | register ht _ hts =>
    subst ht hts
    refine tracked_move h id (fun hm => .inr (.inl hm))
      (fun hm => .inr (.inr (.inl (List.mem_append_left _ hm)))) fun hown => ?_
    cases eq_of_flushing hown
    exact .inr (.inr (.inl (List.mem_append_right _ (List.mem_singleton_self _))))
  | answers ht =>
    refine tracked_move h (List.mem_append_left _) (fun hm => .inr (.inl hm))
      (fun hm => .inr (.inr (.inl hm))) fun hown => .inl (List.mem_append_right _ ?_)
    obtain ⟨rfl, rfl⟩ | ⟨e, rfl, rfl⟩ := ht
    all_goals
      cases eq_of_flushing hown
      exact List.mem_singleton_self _
  | complete ht hts hw =>
    subst ht hts
    refine tracked_move h (List.mem_append_left _)
      (fun hm => .inr (.inl
        (remove_queuedFlushes.symm ▸ hm : waiter ∈ (s.state.remove _).queuedFlushes)))
      (fun hm => ?_) nofun
    rw [hw] at hm
    rcases List.mem_append.mp hm with hm | hm
    · exact .inr (.inr (.inl hm))
    · exact .inl (List.mem_append_right _ hm)
  | drain ht hts =>
    subst ht hts
    exact tracked_move h (List.mem_append_left _)
      (fun hm => .inl (List.mem_append_right _ (List.mem_append_right _ hm)))
      (fun hm => .inl (List.mem_append_right _ (List.mem_append_left _ hm))) nofun
  | accepts ht _ hts =>
    subst ht hts
    exact tracked_same h rfl queuedFlushes_append_data rfl rfl
  | control ht hts =>
    subst ht hts
    refine tracked_move h id (fun hm => .inr (.inl ?_)) (fun hm => .inr (.inr (.inl hm))) nofun
    rw [queuedFlushes_append_flush]
    exact List.mem_append_left _ hm

/-- The adapter waits for the answer to a flush, or is about to. -/
def Waits (s : Side) (threads : Multiset Thread) (waiter : Waiter) : Prop :=
  s.receiver = some waiter ∨ ∃ t ∈ threads, t.awaits = some waiter

theorem waits_same {waiter : Waiter} (hr : s'.receiver = s.receiver)
    (hts : ∀ u ∈ ts, u.awaits = none) (h : Waits s' (ts + rest) waiter) :
    Waits s (t ::ₘ rest) waiter := by
  rcases h with h | ⟨u, hu, hw⟩
  · exact .inl (hr ▸ h)
  · rcases Multiset.mem_add.mp hu with hu | hu
    · rw [hts u (Multiset.mem_coe.mp hu)] at hw
      cases hw
    · exact .inr ⟨u, Multiset.mem_cons_of_mem hu, hw⟩

theorem waits_one {u : Thread} {waiter : Waiter} (hr : s'.receiver = s.receiver)
    (hu : u.awaits = none) (h : Waits s' (([u] : List Thread) + rest) waiter) :
    Waits s (t ::ₘ rest) waiter :=
  waits_same hr (List.forall_mem_singleton.mpr hu) h

/-- What the adapter waits for it waited for before, or it has just put it into the
queue. -/
theorem waits_step {waiter : Waiter} (hs : SideStep cfg s t ts s')
    (h : Waits s' (ts + rest) waiter) :
    Waits s (t ::ₘ rest) waiter ∨ waiter ∈ s'.state.queuedFlushes := by
  induction hs with
  | quiet hk => exact .inl (waits_same rfl hk.awaits h)
  | wake hk => exact .inl (waits_same wake_receiver hk.awaits h)
  | popData ht _ _ hts | popFlush ht _ _ hts =>
    subst ht hts
    exact .inl (waits_one rfl rfl h)
  | complete ht hts | register ht _ hts | accepts ht _ hts | parks ht _ hts =>
    subst ht hts
    exact .inl (waits_one rfl rfl h)
  | push ht hts | write ht hts | writeFails ht hts | drain ht hts | begins ht hts
  | stores ht hts =>
    subst ht hts
    exact .inl (waits_one rfl rfl h)
  | calls ht _ hts =>
    subst ht hts
    exact .inl (waits_same rfl
      (List.forall_mem_cons.mpr ⟨rfl, List.forall_mem_singleton.mpr rfl⟩) h)
  | answers ht =>
    obtain ⟨rfl, rfl⟩ | ⟨e, rfl, rfl⟩ := ht
    all_goals exact .inl (waits_one rfl rfl h)
  | @control op w ht hts =>
    subst ht hts
    rcases h with h | ⟨u, hu, hw⟩
    · exact .inl (.inl h)
    · rcases Multiset.mem_add.mp hu with hu | hu
      · rw [Multiset.mem_coe, List.mem_singleton] at hu
        subst hu
        cases hw
        right
        rw [queuedFlushes_append_flush]
        exact List.mem_append_right _ (List.mem_singleton_self _)
      · exact .inl (.inr ⟨u, Multiset.mem_cons_of_mem hu, hw⟩)
  | @notifies op w ht hts =>
    subst ht hts
    rcases h with h | ⟨u, hu, hw⟩
    · cases h
      exact .inl (.inr ⟨_, Multiset.mem_cons_self _ _, rfl⟩)
    · rcases Multiset.mem_add.mp hu with hu | hu
      · rw [Multiset.mem_coe, List.mem_singleton] at hu
        subst hu
        cases hw
      · exact .inl (.inr ⟨u, Multiset.mem_cons_of_mem hu, hw⟩)
  | receives ht hts =>
    subst ht hts
    rcases h with h | ⟨u, hu, hw⟩
    · cases h
    · rcases Multiset.mem_add.mp hu with hu | hu
      · rw [Multiset.mem_coe, List.mem_singleton] at hu
        subst hu
        cases hw
      · exact .inl (.inr ⟨u, Multiset.mem_cons_of_mem hu, hw⟩)

/-- A flush that comes too late. -/
def Late (s : Side) (t : Thread) : Prop :=
  (∃ op waiter, t = .stream (.control op waiter) ∧ s.state.terminal = some (.ok ())) ∨
  ∃ waiter, t = .writer (.register waiter) ∧ s.state.terminal.isSome = true ∧
    s.state.inFlightCount ≠ 0

/-- What has ended stays clean, as long as no flush comes too late. -/
theorem ended_step (h : s.state.terminal.isSome = true →
      s.state.queuedFlushes = [] ∧ s.state.flushWaiters = [])
    (hlate : ¬ Late s t) (hs : SideStep cfg s t ts s') (hterm : s'.state.terminal.isSome = true) :
    s'.state.queuedFlushes = [] ∧ s'.state.flushWaiters = [] := by
  induction hs with
  | quiet | write | writeFails | calls | answers | begins | stores | parks | notifies | receives
  | push => exact h hterm
  | wake hk =>
    rw [wake_state] at hterm ⊢
    exact h hterm
  | popData _ hnone | popFlush _ hnone =>
    rw [show s.state.terminal = none from hnone] at hterm
    cases hterm
  | @register waiter ht hcount => exact absurd (.inr ⟨waiter, ht, hterm, hcount⟩) hlate
  | complete _ _ hw =>
    have hterm' : s.state.terminal.isSome = true := remove_terminal ▸ hterm
    obtain ⟨hq, hf⟩ := h hterm'
    rw [hf] at hw
    exact ⟨remove_queuedFlushes.trans hq, (List.append_eq_nil_iff.mp hw.symm).1⟩
  | drain => exact ⟨rfl, rfl⟩
  | accepts => exact ⟨queuedFlushes_append_data.trans (h hterm).1, (h hterm).2⟩
  | @control op waiter ht _ herr =>
    obtain ⟨result, hresult⟩ := Option.isSome_iff_exists.mp hterm
    have hresult' : s.state.terminal = some result := hresult
    cases result with
    | ok _ => exact absurd (.inl ⟨op, waiter, ht, hresult'⟩) hlate
    | error e => exact absurd hresult' (herr e)

theorem flushInv_step (h : FlushInv s (t ::ₘ rest)) (hlate : ¬ Late s t)
    (hs : SideStep cfg s t ts s') : FlushInv s' (ts + rest) where
  ended := ended_step h.ended hlate hs
  tracked := by
    intro waiter hw
    rcases waits_step hs hw with hw | hq
    · exact tracked_step (h.tracked waiter hw) hs
    · exact .inr (.inl hq)

theorem flushInv_init : FlushInv (Shared.side {}) start.config.threads where
  ended := nofun
  tracked := by
    intro waiter hw
    rcases hw with hw | ⟨t, ht, hw⟩
    · cases hw
    · rw [Listed.config, start, Multiset.mem_coe] at ht
      simp only [List.mem_cons, List.not_mem_nil, or_false] at ht
      rcases ht with rfl | rfl | rfl <;> cases hw

theorem FlushesInTime.not_late {c : Config Shared Thread} {ch : Choice}
    (h : FlushesInTime c t ch) : ¬ Late c.shared.side t := by
  rintro (⟨op, waiter, rfl, hok⟩ | ⟨waiter, rfl, hterm, hcount⟩)
  · exact h.1 op waiter rfl hok
  · exact hcount (h.2 waiter rfl hterm)

theorem flushInv_reachable {c : Config Shared Thread}
    (h : Reachable (step cfg) FlushesInTime start.config c) :
    FlushInv c.shared.side c.threads := by
  refine h.invariant (P := fun c => FlushInv c.shared.side c.threads) flushInv_init ?_
  rintro _ _ - hi ⟨ha, hn⟩
  exact flushInv_step hi ha.not_late (step_side hn)

theorem answerTo_isSome {s : Shared} {waiter : Waiter} (h : waiter ∈ answered s.trace) :
    (s.answerTo waiter).isSome = true := by
  obtain ⟨e, he, heq⟩ := List.mem_filterMap.mp h
  rw [Shared.answerTo, List.findSome?_isSome_iff]
  refine ⟨e, he, ?_⟩
  cases e <;> cases heq
  simp

theorem FlushInv.answered {c : Config Shared Thread} (h : FlushInv c.shared.side c.threads) :
    FlushesAnswered c where
  queue := fun hterm => (h.ended hterm).1
  waiters := fun hterm => (h.ended hterm).2
  receiver := by
    intro hterm waiter hr
    obtain ⟨hq, hw⟩ := h.ended hterm
    rcases h.tracked waiter (.inl hr) with hm | hm | hm | hm
    · exact .inl (answerTo_isSome hm)
    · rw [hq] at hm
      cases hm
    · rw [hw] at hm
      cases hm
    · exact .inr hm

/-- **No flush is left unanswered on a stream that has ended**, in every run in which
none comes too late; and one step by which one does leaves it in the queue or among the
waiters. -/
theorem flushes_answered {c : Config Shared Thread}
    (h : Reachable (step cfg) FlushesInTime start.config c) :
    FlushesAnswered c ∧
      ∀ t rest ch s' ts, c.threads = t ::ₘ rest → ¬ FlushesInTime c t ch →
        step cfg c.shared t ch = some (s', ts) → ¬ FlushesAnswered ⟨s', ts + rest⟩ := by
  refine ⟨(flushInv_reachable h).answered, ?_⟩
  intro t rest ch s' ts hc hlate hn hanswered
  rw [FlushesInTime, not_and_or] at hlate
  rcases hlate with hlate | hlate
  · simp only [not_forall, not_not] at hlate
    obtain ⟨op, waiter, rfl, hok⟩ := hlate
    cases ch with
    | go =>
      rw [step, streamStep, hok] at hn
      simp only [Option.some.injEq, Prod.mk.injEq] at hn
      obtain ⟨rfl, rfl⟩ := hn
      have hnil := hanswered.queue (by simp [hok])
      rw [queuedFlushes_append_flush] at hnil
      simp at hnil
    | _ => cases hn
  · simp only [not_forall] at hlate
    obtain ⟨waiter, rfl, hterm, hcount⟩ := hlate
    cases ch with
    | go =>
      rw [step, writerStep, if_neg hcount] at hn
      simp only [Option.some.injEq, Prod.mk.injEq] at hn
      obtain ⟨rfl, rfl⟩ := hn
      have hnil := hanswered.waiters hterm
      simp at hnil
    | _ => cases hn

/-! ## Runs -/

/-- `FlushesInTime` as a test. -/
def flushesInTime (c : Listed Shared Thread) (t : Thread) (_ : Choice) : Bool :=
  match t with
  | .stream (.control _ _) => !(c.shared.write.state.terminal = some (.ok ()))
  | .writer (.register _) =>
    !c.shared.write.state.terminal.isSome || c.shared.write.state.inFlightCount = 0
  | _ => true

theorem flushesInTime_sound (c : Listed Shared Thread) (t : Thread) (ch : Choice)
    (h : flushesInTime c t ch = true) : FlushesInTime c.config t ch := by
  constructor
  · rintro op waiter rfl
    simpa [flushesInTime, Listed.config] using h
  · rintro waiter rfl hterm
    have hterm' : c.shared.write.state.terminal.isSome = true := hterm
    simpa [flushesInTime, Listed.config, hterm'] using h

/-- A flush waits for the write in flight when the stream ends. -/
def endsFlush : Schedule :=
  opens ++ writes ++
  [(.stream .idle, .pollFlush :: go 3),
   (.writer .top, go 9)] ++
  cancels

theorem flushes_answered_ends :
    let c := (Pool.play (step {}) flushesInTime start endsFlush).config
    (c.shared.write.state.terminal = some (.error .canceled) ∧
      c.shared.adapter.flushReceiver = some 0 ∧
      c.shared.answerTo 0 = some (.error .canceled)) ∧ FlushesAnswered c := by
  refine ⟨by decide +kernel, ?_⟩
  exact (flushes_answered (play_reachable flushesInTime_sound endsFlush Reachable.start)).1

/-- The stream succeeds, and then it is flushed. -/
def flushesAfter : Schedule :=
  opens ++
  [(.outside .cronet, [.callback .succeeded]),
   (.callback (.entered .succeeded), go 14),
   (.writer .top, go 4),
   (.stream .idle, .pollFlush :: go 3)]

/-- **A flush after the end of a stream that succeeded is never answered.** -/
theorem flush_unanswered :
    ∃ c, Reachable (step {}) (fun _ _ _ => True) start.config c ∧
      c.shared.write.state.terminal = some (.ok ()) ∧
      c.shared.write.state.queuedFlushes = [0] ∧
      c.shared.adapter.flushReceiver = some 0 ∧ c.shared.answerTo 0 = none ∧
      ∀ t ∈ c.threads, t.loops = 0 := by
  refine ⟨(Pool.play (step {}) unchecked start flushesAfter).config,
    play_reachable (fun _ _ _ _ => trivial) flushesAfter Reachable.start, ?_⟩
  decide +kernel

end TokioCronet.Bidirectional
