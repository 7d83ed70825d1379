import TokioCronet.Bidirectional.Flushed

/-!
# The write capacity

`enqueue_data` counts what is in the queue and what is in flight, under the lock, and takes a
command if there is room. The write loop takes a command out in one lock section and records it
in flight in another one, and between the two nobody counts it. So the capacity can be exceeded,
by that one command and by no more.
-/

namespace TokioCronet.Bidirectional

open Pool

variable {cfg : Settings} {s s' : Side} {t : Thread} {ts : List Thread} {rest : Multiset Thread}
  {allowed : Policy Shared Thread Choice} {c : Config Shared Thread}

/-- The first lock section of `enqueue_data` takes the command. -/
structure Takes (cfg : Settings) (s : Shared) (t : Thread) : Prop where
  /-- A call of `enqueue_data` takes it. -/
  enqueues : ∃ op waker, t = .stream (.enqueue op waker)
  /-- The write side has not failed. -/
  unfailed : ∀ e, s.write.state.terminal ≠ some (.error e)
  /-- The end of the stream was not enqueued. -/
  unclosed : s.write.state.localClosed = false
  /-- There is room. -/
  room : s.write.state.full cfg = false

/-- `enqueue_data` takes a command only if there is room for it beside the one that the write
loop may have taken out of the queue and not yet recorded in flight. -/
def TakesWithRoom (cfg : Settings) : Policy Shared Thread Choice := fun c t _ =>
  Takes cfg c.shared t → ¬ c.shared.side.FullWith cfg (total Thread.hand c.threads)

/-- The count of the writes in flight is what the map holds. -/
def Counted (s : WriteState) : Prop := s.inFlightCount = s.inFlight.length

/-- What is queued and in flight is within the capacity. -/
def Bounded (cfg : Settings) (s : WriteState) : Prop :=
  s.queueDataCount + s.inFlightCount ≤ cfg.writeCapacity

/-- The commands that take up room, the one in the hand of the write loop included. -/
def Side.load (s : Side) (hand : Nat) : Nat :=
  s.state.queueDataCount + s.state.inFlightCount + hand

/-! ## One step -/

theorem queueDataCount_control {w : WriteState} {waiter : Waiter} :
    WriteState.queueDataCount { w with queue := w.queue ++ [.flush waiter] } =
      w.queueDataCount := by
  rw [WriteState.queueDataCount, WriteState.queueDataCount, List.countP_append]
  rfl

theorem queueDataCount_accept {w : WriteState} {data : Buffer} {eos closed : Bool} :
    WriteState.queueDataCount
        { w with queue := w.queue ++ [.data data eos], localClosed := closed } =
      w.queueDataCount + 1 := by
  rw [WriteState.queueDataCount, WriteState.queueDataCount, List.countP_append]
  rfl

theorem remove_count_le (w : WriteState) (pointer : Nat) :
    (w.remove pointer).inFlightCount ≤ w.inFlightCount := by
  unfold WriteState.remove
  split
  · exact Nat.sub_le _ _
  · exact Nat.le_refl _

/-- **Only a command that is taken adds to the load.** -/
theorem load_step (hs : SideStep cfg s t ts s') :
    (∃ op waker, t = .stream (.enqueue op waker) ∧ ts = [.stream (.notify op)] ∧
      ∀ hand, s'.load hand = s.load hand + 1) ∨
    s'.load (ts.map Thread.hand).sum ≤ s.load t.hand := by
  induction hs with
  | quiet hk =>
    right
    rw [hk.hand]
  | wake hk =>
    right
    rw [hk.hand, Side.load, wake_state]
    exact Nat.le_refl _
  | @popData epoch data eos queue ht hterm hq hts =>
    subst ht hts
    right
    -- the command goes from the queue to the hand of the write loop
    rw [Side.load, Side.load, queueDataCount_data hq, Nat.add_right_comm _ 1]
    exact Nat.le_refl _
  | @popFlush epoch waiter queue ht hterm hq hts =>
    subst ht hts
    right
    rw [Side.load, Side.load, queueDataCount_flush hq]
    exact Nat.le_refl _
  | push ht hts =>
    subst ht hts
    right
    show s.state.queueDataCount + (s.state.inFlightCount + 1) + 0 ≤
      s.state.queueDataCount + s.state.inFlightCount + 1
    omega
  | write ht hts | writeFails ht hts | register ht _ hts =>
    subst ht hts
    exact .inr (Nat.le_refl _)
  | answers ht =>
    right
    obtain ⟨rfl, rfl⟩ | ⟨e, rfl, rfl⟩ := ht
    · exact Nat.le_refl _
    · exact Nat.le_refl _
  | calls ht _ hts =>
    subst ht hts
    exact .inr (Nat.le_refl _)
  | @complete pointer blocked waiters answered ht hts =>
    subst ht hts
    right
    have hcount := remove_count_le s.state pointer
    have hqueue : (s.state.remove pointer).queueDataCount = s.state.queueDataCount := by
      rw [WriteState.queueDataCount, remove_queue]
      rfl
    show (s.state.remove pointer).queueDataCount + (s.state.remove pointer).inFlightCount + 0 ≤
      s.state.queueDataCount + s.state.inFlightCount + 0
    omega
  | @drain who result ht hts =>
    subst ht hts
    right
    have hempty : WriteState.queueDataCount
        { s.state with terminal := some result, flushWaiters := [], queue := [] } = 0 := rfl
    have hhand : Thread.hand (.finish (.wake who result)) = 0 := by cases who <;> rfl
    rw [Side.load, Side.load, hempty, List.map_singleton, List.sum_singleton, hhand]
    show 0 + s.state.inFlightCount + 0 ≤ s.state.queueDataCount + s.state.inFlightCount + _
    omega
  | begins ht hts | stores ht hts | parks ht _ hts | notifies ht hts | receives ht hts =>
    subst ht hts
    exact .inr (Nat.le_refl _)
  | @accepts op waker ht _ hts =>
    subst ht hts
    refine .inl ⟨op, waker, rfl, rfl, fun hand => ?_⟩
    rw [Side.load, queueDataCount_accept]
    show s.state.queueDataCount + 1 + s.state.inFlightCount + hand =
      s.state.queueDataCount + s.state.inFlightCount + hand + 1
    omega
  | control ht hts =>
    subst ht hts
    right
    rw [Side.load, queueDataCount_control]
    exact Nat.le_refl _

/-- A command that is taken was looked at first. -/
theorem takes_enqueue {s s' : Shared} {op : Producing} {waker : Waker} {ch : Choice}
    (h : step cfg s (.stream (.enqueue op waker)) ch = some (s', [.stream (.notify op)])) :
    Takes cfg s (.stream (.enqueue op waker)) := by
  cases ch with
  | go =>
    refine ⟨⟨op, waker, rfl⟩, fun e he => ?_, ?_, ?_⟩
    · rw [step, streamStep, he] at h
      cases h
    · by_contra hclosed
      rw [Bool.not_eq_false] at hclosed
      rw [step, streamStep] at h
      split at h
      · cases h
      · rw [if_pos hclosed] at h
        cases h
    · by_contra hfull
      rw [Bool.not_eq_false] at hfull
      rw [step, streamStep] at h
      split at h
      · cases h
      · split_ifs at h
        · cases h
        · cases h
  | _ => cases h

/-! ## Runs -/

/-- The write loop has one command in its hand at most. -/
theorem hand_le_one (h : Reachable (step cfg) allowed start.config c) :
    total Thread.hand c.threads ≤ 1 := by
  refine Nat.le_trans (total_le_total fun t => ?_) (orderInv_reachable h).loops
  unfold Thread.hand Thread.loops
  split
  · rename_i hstage
    rw [hstage]
  · exact Nat.zero_le _

/-- What the load of a configuration becomes. -/
theorem load_next {s s' : Shared} {ch : Choice} (hn : step cfg s t ch = some (s', ts)) :
    Takes cfg s t ∧ s'.side.load (total Thread.hand (ts + rest)) =
        s.side.load (total Thread.hand (t ::ₘ rest)) + 1 ∨
      s'.side.load (total Thread.hand (ts + rest)) ≤
        s.side.load (total Thread.hand (t ::ₘ rest)) := by
  rcases load_step (step_side hn) with ⟨op, waker, rfl, rfl, hload⟩ | hload
  · refine .inl ⟨takes_enqueue hn, ?_⟩
    rw [total_add, total_coe, total_cons]
    exact hload (0 + total Thread.hand rest)
  · right
    rw [total_add, total_coe, total_cons]
    unfold Side.load at hload ⊢
    omega

theorem Takes.load_lt {s : Shared} (h : Takes cfg s t) : s.side.load 0 < cfg.writeCapacity :=
  Nat.lt_of_not_le (of_decide_eq_false h.room)

/-- **At most one command too many**, in every run. -/
theorem load_reachable (h : Reachable (step cfg) allowed start.config c) :
    c.shared.side.load (total Thread.hand c.threads) ≤ cfg.writeCapacity + 1 := by
  refine h.invariant
    (P := fun c => c.shared.side.load (total Thread.hand c.threads) ≤ cfg.writeCapacity + 1)
    (Nat.zero_le _) ?_
  rintro _ _ hr hi ⟨-, hn⟩
  rcases load_next hn with ⟨hacc, hload⟩ | hload
  · have hhand := hand_le_one hr
    have hroom := hacc.load_lt
    dsimp only at hhand
    rw [hload]
    unfold Side.load at hroom ⊢
    omega
  · exact Nat.le_trans hload hi

/-- **Nothing too many**, where every command that is taken has room beside the hand. -/
theorem load_bounded (h : Reachable (step cfg) (TakesWithRoom cfg) start.config c) :
    c.shared.side.load (total Thread.hand c.threads) ≤ cfg.writeCapacity := by
  refine h.invariant
    (P := fun c => c.shared.side.load (total Thread.hand c.threads) ≤ cfg.writeCapacity)
    (Nat.zero_le _) ?_
  rintro _ _ - hi ⟨ha, hn⟩
  rcases load_next hn with ⟨hacc, hload⟩ | hload
  · rw [hload]
    exact Nat.lt_of_not_le (ha hacc)
  · exact Nat.le_trans hload hi

/-! ## The step that goes wrong -/

theorem stage_holds {op : GatedOp} {write : InFlightWrite} : op.stage ≠ some (.holds write) := by
  unfold GatedOp.stage
  split <;> intro h <;> cases h

/-- A command is in the hand of the write loop just before it is recorded. -/
theorem hand_pushes (h : 0 < t.hand) : ∃ data eos, t = .writer (.push data eos) := by
  unfold Thread.hand at h
  split at h
  · rename_i write hstage
    unfold Thread.stage at hstage
    split at hstage
    all_goals first
      | exact absurd hstage stage_holds
      | cases hstage
    exact ⟨_, _, rfl⟩
  · cases h

/-- The step that takes the command. -/
theorem Takes.load_succ {s s' : Shared} {ch : Choice} (h : Takes cfg s t)
    (hn : step cfg s t ch = some (s', ts)) : s'.side.load 0 = s.side.load 0 + 1 := by
  obtain ⟨op, waker, rfl⟩ := h.enqueues
  cases ch with
  | go =>
    rw [step, streamStep] at hn
    split at hn
    · rename_i e hfailed
      exact absurd hfailed (h.unfailed e)
    · rw [if_neg (by rw [h.unclosed]; exact Bool.false_ne_true),
        if_neg (by rw [h.room]; exact Bool.false_ne_true), Option.some.injEq] at hn
      cases hn
      show WriteState.queueDataCount _ + _ + 0 = _
      rw [Shared.side, queueDataCount_accept]
      exact Nat.succ_add _ _
  | _ => cases hn

/-- **A command that is taken too many** can be seen one step later. -/
theorem overfull {s' : Shared} {ch : Choice}
    (h : Reachable (step cfg) allowed start.config c) (hc : c.threads = t ::ₘ rest)
    (hlate : ¬ TakesWithRoom cfg c t ch) (hn : step cfg c.shared t ch = some (s', ts)) :
    ∃ c', Step (step cfg) (TakesWithRoom cfg) ⟨s', ts + rest⟩ c' ∧
      ¬ Bounded cfg c'.shared.write.state := by
  obtain ⟨htakes, hfull⟩ := Classical.not_imp.mp hlate
  rw [not_not] at hfull
  have hone := hand_le_one h
  have hlt := htakes.load_lt
  rw [hc, total_cons] at hone hfull
  unfold Side.FullWith at hfull
  have hnone : t.hand = 0 := by
    obtain ⟨op, waker, rfl⟩ := htakes.enqueues
    rfl
  -- the room is there without the hand, so there is something in the hand
  have hhand : total Thread.hand rest ≠ 0 := by
    unfold Side.load at hlt
    omega
  rw [ne_eq, total_eq_zero] at hhand
  push Not at hhand
  obtain ⟨u, hu, hholds⟩ := hhand
  obtain ⟨data, eos, rfl⟩ := hand_pushes (Nat.pos_of_ne_zero hholds)
  obtain ⟨rest', rfl⟩ := Multiset.exists_cons_of_mem hu
  rw [Multiset.add_cons]
  refine ⟨_, .run ?_ (show step cfg s' (.writer (.push data eos)) .go = _ from rfl), ?_⟩
  · rintro ⟨⟨op, waker, heq⟩, -, -, -⟩
    cases heq
  · have hsucc := htakes.load_succ hn
    unfold Side.load at hsucc hlt
    unfold Bounded
    show ¬ s'.side.state.queueDataCount + (s'.side.state.inFlightCount + 1) ≤ cfg.writeCapacity
    omega

/-- **The write capacity bounds what is queued and in flight**, in every run in which
`enqueue_data` takes nothing without room beside the hand of the write loop; in any other run
there is one command too many at most, one step after it was taken. The count is right in every
run. -/
theorem writes_bounded (cfg : Settings) :
    (∀ {allowed : Policy Shared Thread Choice} {c : Config Shared Thread},
      Reachable (step cfg) allowed start.config c → Counted c.shared.write.state ∧
        c.shared.write.state.queueDataCount + c.shared.write.state.inFlightCount ≤
          cfg.writeCapacity + 1) ∧
    ∀ {c : Config Shared Thread}, Reachable (step cfg) (TakesWithRoom cfg) start.config c →
      Bounded cfg c.shared.write.state ∧
        ∀ t rest ch s' ts, c.threads = t ::ₘ rest → ¬ TakesWithRoom cfg c t ch →
          step cfg c.shared t ch = some (s', ts) →
          ∃ c', Step (step cfg) (TakesWithRoom cfg) ⟨s', ts + rest⟩ c' ∧
            ¬ Bounded cfg c'.shared.write.state := by
  refine ⟨fun h => ⟨(ledgerInv_reachable h).count, ?_⟩, fun h => ⟨?_, ?_⟩⟩
  · exact Nat.le_trans (Nat.le_add_right _ _) (load_reachable h)
  · exact Nat.le_trans (Nat.le_add_right _ _) (load_bounded h)
  · intro t rest ch s' ts hc hlate hn
    exact overfull h hc hlate hn

/-- The write loop has taken the first write out of the queue, the second one is accepted, and
the first one is recorded in flight. -/
def overfills : Schedule :=
  opens ++
  [(.stream .idle, .pollWrite [1] 0 3 :: go 2),
   (.writer .top, go 3),
   (.stream .idle, .pollWrite [2] 1 3 :: go 2),
   (.writer (.push { pointer := 0, bytes := [1] } false), go 1)]

theorem write_overfull :
    ∃ c, Reachable (step { writeCapacity := 1 }) (fun _ _ _ => True) start.config c ∧
      c.shared.write.state.queueDataCount = 1 ∧ c.shared.write.state.inFlightCount = 1 ∧
      ¬ Bounded { writeCapacity := 1 } c.shared.write.state := by
  refine ⟨(Pool.play (step { writeCapacity := 1 }) unchecked start overfills).config,
    play_reachable (fun _ _ _ _ => trivial) overfills Reachable.start, by decide +kernel,
    by decide +kernel, ?_⟩
  unfold Bounded
  decide +kernel

/-- `TakesWithRoom` as a test. -/
def takesWithRoom (cfg : Settings) (c : Listed Shared Thread) (t : Thread) (_ : Choice) : Bool :=
  match t with
  | .stream (.enqueue _ _) =>
    decide (c.shared.write.state.queueDataCount + c.shared.write.state.inFlightCount +
      (c.threads.map Thread.hand).sum < cfg.writeCapacity)
  | _ => true

theorem takesWithRoom_sound (c : Listed Shared Thread) (t : Thread) (ch : Choice)
    (h : takesWithRoom cfg c t ch = true) : TakesWithRoom cfg c.config t ch := by
  rintro ⟨⟨op, waker, rfl⟩, -, -, -⟩
  have hlt := of_decide_eq_true h
  unfold Side.FullWith
  rw [Listed.config, total_coe]
  exact Nat.not_le_of_lt hlt

/-- The second write is accepted when the first one is in flight. -/
theorem writes_bounded_fills :
    let c := (Pool.play (step { writeCapacity := 2 }) (takesWithRoom { writeCapacity := 2 })
      start (opens ++ writes ++ [(.stream .idle, .pollWrite [2] 1 3 :: go 2)])).config
    c.shared.write.state.queueDataCount = 1 ∧ c.shared.write.state.inFlightCount = 1 ∧
      Counted c.shared.write.state ∧ Bounded { writeCapacity := 2 } c.shared.write.state := by
  have hreach : Reachable (step { writeCapacity := 2 }) (TakesWithRoom { writeCapacity := 2 })
      start.config _ := play_reachable takesWithRoom_sound
        (opens ++ writes ++ [(.stream .idle, .pollWrite [2] 1 3 :: go 2)]) Reachable.start
  obtain ⟨hevery, hroom⟩ := writes_bounded { writeCapacity := 2 }
  exact ⟨by decide +kernel, by decide +kernel, (hevery hreach).1, (hroom hreach).1⟩

end TokioCronet.Bidirectional
