import TokioCronet.Bidirectional.Flushed

/-!
# What `poll_flush` may conclude

The adapter keeps the receiver of a flush until it has its answer, also when the caller
has given up that flush and written more since. The next `poll_flush` finds the receiver
and takes the old answer for its own, so it says nothing of what was written in between.
A flush that is begun when no receiver is stored is answered for itself, and its answer
covers all that was accepted before it.
-/

namespace TokioCronet.Bidirectional

open Pool

variable {cfg : Settings} {s s' : Flow} {t u : Thread} {ts : List Thread} {rest : Multiset Thread}

/-! ## What the adapter takes for the answer -/

/-- There is one adapter. -/
theorem SideStep.adapts {s s' : Side} (hs : SideStep cfg s t ts s') :
    (ts.map Thread.adapts).sum ≤ t.adapts := by
  induction hs with
  | quiet hk | wake hk => exact hk.adapts
  | popData ht _ _ hts | popFlush ht _ _ hts =>
    subst ht hts
    exact le_rfl
  | answers ht =>
    obtain ⟨rfl, rfl⟩ | ⟨e, rfl, rfl⟩ := ht <;> exact le_rfl
  | accepts ht _ hts | parks ht _ hts | calls ht _ hts | register ht _ hts =>
    subst ht hts
    exact le_rfl
  | push ht hts | write ht hts | writeFails ht hts | complete ht hts | drain ht hts =>
    subst ht hts
    exact le_rfl
  | begins ht hts | stores ht hts | control ht hts | notifies ht hts | receives ht hts =>
    subst ht hts
    exact le_rfl

theorem adapts_reachable {allowed : Policy Shared Thread Choice} {c : Config Shared Thread}
    (h : Reachable (step cfg) allowed start.config c) : total Thread.adapts c.threads ≤ 1 := by
  refine h.invariant (P := fun c => total Thread.adapts c.threads ≤ 1) (by decide) ?_
  rintro _ _ - hi ⟨-, hn⟩
  exact passed_step hi (step_side hn).adapts

theorem receives_adapts {op : PollOp} (h : t.receives = some op) : t.adapts = 1 := by
  unfold Thread.receives at h
  split at h <;> first | rfl | cases h

theorem brings_adapts {w : Waiter} (h : t.brings = some w) : t.adapts = 1 := by
  unfold Thread.brings at h
  split at h <;> first | rfl | cases h

/-- Beside the adapter there is no other. -/
theorem adapts_alone (h : total Thread.adapts (t ::ₘ rest) ≤ 1) (ht : t.adapts = 1)
    (hu : u ∈ rest) : u.adapts = 0 := by
  have hle := add_le_total (w := Thread.adapts) (t := t) hu
  omega

/-- The adapter waits for the flushes from `first` on, and `poll_flush` for one of them. -/
structure Receiving (first : Waiter) (s : Flow) (threads : Multiset Thread) : Prop where
  /-- New flushes get later numbers. -/
  next : first ≤ s.next
  /-- The adapter waits for one of these flushes. -/
  receiver : ∀ w, s.receiver = some w → first ≤ w
  /-- The threads bring one of them. -/
  brought : ∀ t ∈ threads, ∀ w, t.brings = some w → first ≤ w
  /-- `poll_flush` has a receiver. -/
  receives : ∀ t ∈ threads, t.receives = some .flush → s.receiver.isSome = true

/-- A step of which the adapter sees nothing. -/
theorem Receiving.still {first : Waiter} (h : Receiving first s (t ::ₘ rest))
    (hnext : s'.next = s.next) (hr : s'.receiver = s.receiver) (hb : ∀ u ∈ ts, u.brings = none)
    (hts : ∀ u ∈ ts, u.receives = none) : Receiving first s' (ts + rest) := by
  refine ⟨hnext ▸ h.next, hr ▸ h.receiver, ?_, ?_⟩
  · exact forall_step (A := fun u => ∀ w, u.brings = some w → first ≤ w) h.brought
      (fun _ u hu w hw => by rw [hb u hu] at hw; cases hw) fun _ _ hu => hu
  · rw [hr]
    exact forall_step (A := fun u => u.receives = some .flush → s.receiver.isSome = true) h.receives
      (fun _ u hu hw => by rw [hts u hu] at hw; cases hw) fun _ _ hu => hu

/-- The adapter moves to its next position. -/
theorem Receiving.moves {first : Waiter} (h : Receiving first s (t ::ₘ rest))
    (hone : total Thread.adapts (t ::ₘ rest) ≤ 1) (ht : t.adapts = 1) (hnext : s.next ≤ s'.next)
    (hr : ∀ w, s'.receiver = some w → first ≤ w) (hb : ∀ w, u.brings = some w → first ≤ w)
    (hu : u.receives = some .flush → s'.receiver.isSome = true) :
    Receiving first s' (([u] : List Thread) + rest) := by
  refine ⟨h.next.trans hnext, hr, ?_, ?_⟩
  · refine forall_step h.brought ?_ fun _ _ hv => hv
    intro _ v hv w hw
    rw [List.mem_singleton] at hv
    exact hb w (hv ▸ hw)
  · refine forall_step h.receives ?_ ?_
    · intro _ v hv hw
      rw [List.mem_singleton] at hv
      exact hu (hv ▸ hw)
    · intro v hv _ hw
      have hzero := adapts_alone hone ht hv
      rw [receives_adapts hw] at hzero
      cases hzero

theorem unbrought {p : Waiter → Prop} (h : u.brings = none) (w : Waiter) :
    u.brings = some w → p w := by
  rw [h]
  exact nofun

theorem unreceived {p : Prop} (h : u.receives ≠ some .flush) : u.receives = some .flush → p :=
  fun hu => absurd hu h

theorem receiving_step {first : Waiter} (h : Receiving first s (t ::ₘ rest))
    (hone : total Thread.adapts (t ::ₘ rest) ≤ 1) (hs : FlowStep cfg s t ts s') :
    Receiving first s' (ts + rest) := by
  have hmem : t ∈ t ::ₘ rest := Multiset.mem_cons_self t rest
  induction hs with
  | quiet hp => exact h.still rfl rfl hp.brings hp.receives
  | popData ht _ hts | register ht _ hts | answers ht _ hts =>
    subst ht hts
    exact h.still rfl rfl (brings_one rfl) (List.forall_mem_singleton.mpr rfl)
  | popFlush ht _ _ hts | unblocks ht _ hts =>
    subst ht hts
    exact h.still rfl rfl (brings_one rfl) (List.forall_mem_singleton.mpr rfl)
  | push ht hts | write ht hts | flush ht hts | refuses ht hts | completes ht hts | drain ht hts =>
    subst ht hts
    exact h.still rfl rfl (brings_one rfl) (List.forall_mem_singleton.mpr rfl)
  | calls ht hts =>
    subst ht hts
    exact h.still rfl rfl (by simp [Thread.brings]) (by simp [Thread.receives])
  | opens ht hts =>
    subst ht hts
    exact h.still rfl rfl (by simp [Thread.brings]) (by simp [Thread.receives])
  | accepts ht _ hts | polls ht _ hts _ =>
    subst ht hts
    exact h.moves hone rfl le_rfl h.receiver (unbrought rfl)
      (unreceived (by simp [Thread.receives]))
  | begins ht _ hts | starts ht hts =>
    subst ht hts
    refine h.moves hone rfl (Nat.le_succ _) h.receiver ?_ (unreceived (by simp [Thread.receives]))
    intro w hw
    cases hw
    exact h.next
  | @enqueues op waiter ht hts =>
    subst ht hts
    refine h.moves hone rfl le_rfl h.receiver ?_ (unreceived (by simp [Thread.receives]))
    intro w hw
    cases hw
    exact h.brought _ hmem waiter rfl
  | @stores op waiter ht hts =>
    subst ht hts
    refine h.moves hone rfl le_rfl ?_ (unbrought rfl) fun _ => rfl
    intro w hw
    cases hw
    exact h.brought _ hmem waiter rfl
  | waits ht hts hop =>
    subst ht hts
    refine h.moves hone rfl le_rfl h.receiver (unbrought rfl) ?_
    intro hw
    rcases hop with ⟨-, hsome⟩ | ⟨rfl, -⟩
    · exact hsome
    · cases hw
  | receives ht _ _ hts =>
    subst ht hts
    refine h.moves hone rfl le_rfl ?_ (unbrought rfl) (unreceived (by simp [Thread.receives]))
    intro w hw
    cases hw
  | ends ht _ hts =>
    subst ht hts
    exact h.moves hone rfl le_rfl h.receiver (unbrought rfl)
      (unreceived (by simp [Thread.receives]))
  | fails ht hts hr =>
    subst ht hts
    refine h.moves hone rfl le_rfl ?_ (unbrought rfl) (unreceived (by simp [Thread.receives]))
    intro w hw
    rcases hr with hr | hr
    · exact h.receiver w (hr ▸ hw)
    · cases hr.symm.trans hw

/-- When the adapter is idle and has no receiver stored, all the flushes that it will wait
for are still to come. -/
theorem receiving_idle {threads : Multiset Thread} (hone : total Thread.adapts threads ≤ 1)
    (hidle : .stream .idle ∈ threads) (hnone : s.receiver = none) :
    Receiving s.next s threads := by
  obtain ⟨rest, rfl⟩ := Multiset.exists_cons_of_mem hidle
  refine ⟨le_rfl, ?_, ?_, ?_⟩
  · intro w hw
    rw [hnone] at hw
    cases hw
  · intro t ht w hw
    rcases Multiset.mem_cons.mp ht with rfl | ht
    · cases hw
    · have hzero := adapts_alone hone rfl ht
      rw [brings_adapts hw] at hzero
      cases hzero
  · intro t ht hw
    rcases Multiset.mem_cons.mp ht with rfl | ht
    · cases hw
    · have hzero := adapts_alone hone rfl ht
      rw [receives_adapts hw] at hzero
      cases hzero

/-! ## Polls that return -/

/-- Why a poll returns `Ready(Ok)`. -/
inductive Returns (s : Flow) (t : Thread) : PollOp → Prop
  | answered {op : PollOp} {waiter : Waiter} : t.receives = some op → s.receiver = some waiter →
      .answered waiter (.ok ()) ∈ s.trace → Returns s t op
  | nothing {op : PollOp} : t.receives = some op → s.receiver = none → Returns s t op
  | writes : Returns s t .write
  | closed : s.closed = true → Returns s t .shutdown

theorem returns_step (hs : FlowStep cfg s t ts s') : ∃ l, s'.trace = s.trace ++ l ∧
    ∀ op, .polled op (.ready 0) ∈ l → l = [.polled op (.ready 0)] ∧ Returns s t op := by
  induction hs with
  | quiet | popData | popFlush | push | register | completes | opens | waits | begins | starts
  | enqueues | stores => exact ⟨[], (List.append_nil _).symm, nofun⟩
  | write | flush | answers | refuses | calls | accepts | fails =>
    exact ⟨_, rfl, by simp⟩
  | unblocks | drain => exact ⟨_, rfl, by simp⟩
  | receives ht hr ha hts =>
    refine ⟨_, rfl, ?_⟩
    intro op hop
    cases List.mem_singleton.mp hop
    exact ⟨rfl, .answered (ht ▸ rfl) hr ha⟩
  | ends ht hr hts =>
    refine ⟨_, rfl, ?_⟩
    intro op hop
    cases List.mem_singleton.mp hop
    exact ⟨rfl, .nothing (ht ▸ rfl) hr⟩
  | polls ht _ hts hop =>
    refine ⟨_, rfl, ?_⟩
    intro op hop'
    cases List.mem_singleton.mp hop'
    obtain rfl | ⟨rfl, hclosed⟩ := hop
    · exact ⟨rfl, .writes⟩
    · exact ⟨rfl, .closed hclosed⟩

/-- What a poll that returns `Ready(Ok)` after `before` says. -/
def Told (Good : List Event → Prop) (before : List Event) (op : PollOp) (l : List Event)
    (e : Event) : Prop :=
  e = .polled op (.ready 0) → before <+: l → Good l

theorem told_init {Good : List Event → Prop} {before : List Event} {op : PollOp} :
    Trace.Justified (Told Good before op) before := by
  intro l e r heq _ hl
  have hle := hl.length_le
  rw [heq, List.length_append, List.length_cons] at hle
  omega

theorem told_step {Good : List Event → Prop} {before : List Event} {op : PollOp}
    (h : Trace.Justified (Told Good before op) s.trace) (hs : FlowStep cfg s t ts s')
    (hgood : Returns s t op → Good s.trace) :
    Trace.Justified (Told Good before op) s'.trace := by
  obtain ⟨more, htr, hmore⟩ := returns_step hs
  rw [htr]
  refine h.appends ?_
  rintro l e r rfl rfl -
  obtain ⟨hone, hr⟩ := hmore op (List.mem_append_right l List.mem_cons_self)
  have hl : l = [] := by
    have hlen := congrArg List.length hone
    rw [List.length_append, List.length_cons, List.length_singleton] at hlen
    exact List.length_eq_zero_iff.mp (by omega)
  rw [hl, List.append_nil]
  exact hgood hr

/-! ## Runs -/

variable {b c : Config Shared Thread}

/-- `finish` answers flushes with `Ok` only where all that was accepted is out. -/
def FinishesFlushed : Policy Shared Thread Choice := fun c t _ =>
  ∀ who, t = .finish (.drain who (.ok ())) →
    c.shared.write.state.flushWaiters ++ c.shared.write.state.queuedFlushes = [] ∨
      Flushed c.shared.trace (accepted c.shared.trace).length

/-- The write loop takes its commands from a queue that holds what is not written. -/
theorem popped_sync {allowed : Policy Shared Thread Choice} {epoch : Nat}
    (h : Reachable (step cfg) allowed start.config c) (ht : .writer (.pop epoch) ∈ c.threads)
    (hterm : c.shared.flow.state.terminal = none) :
    accepted c.shared.flow.trace =
      written c.shared.flow.trace ++ c.shared.flow.state.queuedData := by
  have hidle : Stage.Sound c.shared.side .idle := (orderInv_reachable h).stage _ ht _ rfl
  rw [Shared.flow, accepted_flows, written_flows]
  exact hidle hterm

/-- What a run from `b` says of the flushes that are begun in it. -/
structure BarrierInv (b c : Config Shared Thread) : Prop where
  /-- What the flushes say of the writes before them. -/
  covering : Covering (fun tr => Flushed tr (accepted b.shared.flow.trace).length)
    (accepted b.shared.flow.trace).length b.shared.flow.next c.shared.flow c.threads
  /-- The adapter waits for one of them. -/
  receiving : Receiving b.shared.flow.next c.shared.flow c.threads
  /-- What `poll_flush` concludes is so. -/
  told : Trace.Justified (Told (fun tr => Flushed tr (accepted b.shared.flow.trace).length)
    b.shared.flow.trace .flush) c.shared.flow.trace

theorem FinishesFlushed.good {t : Thread} {ch : Choice} {n : Nat} (ha : FinishesFlushed c t ch)
    (hn : n ≤ (accepted c.shared.flow.trace).length) :
    ∀ who, t = .finish (.drain who (.ok ())) →
      c.shared.flow.state.flushWaiters ++ c.shared.flow.state.queuedFlushes = [] ∨
        Flushed c.shared.flow.trace n := by
  intro who ht
  rcases ha who ht with hnil | hall
  · exact .inl hnil
  · right
    rw [Shared.flow, accepted_flows] at hn
    exact flushed_flows.mpr (hall.le hn)

theorem barrierInv_step {s s' : Shared} {ch : Choice}
    (hc : Reachable (step cfg) (fun _ _ _ => True) start.config ⟨s, t ::ₘ rest⟩)
    (h : BarrierInv b ⟨s, t ::ₘ rest⟩) (ha : FinishesFlushed ⟨s, t ::ₘ rest⟩ t ch)
    (hn : step cfg s t ch = some (s', ts)) : BarrierInv b ⟨s', ts + rest⟩ := by
  have hmem : t ∈ t ::ₘ rest := Multiset.mem_cons_self t rest
  have hs := step_flow hn
  refine ⟨?_, receiving_step h.receiving (adapts_reachable hc) hs, ?_⟩
  · refine covering_step h.covering lasting_flushed (ledgerInv_reachable hc) ?_
      (ha.good h.covering.accepted) hs
    rintro epoch rfl hterm
    exact popped_sync hc hmem hterm
  · refine told_step h.told hs ?_
    intro hr
    cases hr with
    | answered ht hw hans => exact h.covering.answered _ hans (h.receiving.receiver _ hw)
    | nothing ht hnone =>
      have hsome := h.receiving.receives t hmem ht
      rw [hnone] at hsome
      cases hsome

theorem barrierInv_reachable (hb : Reachable (step cfg) (fun _ _ _ => True) start.config b)
    (hidle : .stream .idle ∈ b.threads) (hnone : b.shared.adapter.flushReceiver = none)
    (hc : Reachable (step cfg) FinishesFlushed b c) : BarrierInv b c := by
  have hinit : BarrierInv b b :=
    ⟨(freshInv_reachable hb).covering, receiving_idle (adapts_reachable hb) hidle hnone, told_init⟩
  refine hc.invariant (P := BarrierInv b) hinit ?_
  rintro _ _ hr hi ⟨ha, hn⟩
  exact barrierInv_step (hb.trans (hr.mono fun _ _ _ _ => trivial)) hi ha hn

/-- **A flush that is begun for itself covers what was accepted before it**: from a state on
in which the adapter is idle and has no receiver stored, in every run in which `finish`
answers no flush with `Ok` too early, every `poll_flush` that returns `Ready(Ok)` comes after
what had been accepted in that state is out. -/
theorem flush_covers (hb : Reachable (step cfg) (fun _ _ _ => True) start.config b)
    (hidle : .stream .idle ∈ b.threads) (hnone : b.shared.adapter.flushReceiver = none)
    (hc : Reachable (step cfg) FinishesFlushed b c) :
    ∀ l r, c.shared.trace = l ++ .polled .flush (.ready 0) :: r → b.shared.trace <+: l →
      Flushed l (accepted b.shared.trace).length := by
  intro l r heq hl
  have hi := barrierInv_reachable hb hidle hnone hc
  have heq' : c.shared.flow.trace =
      l.filter Event.flows ++ .polled .flush (.ready 0) :: r.filter Event.flows := by
    rw [Shared.flow, heq, List.filter_append, List.filter_cons_of_pos rfl]
  have hgood : Flushed (l.filter Event.flows) (accepted b.shared.flow.trace).length :=
    hi.told _ _ _ heq' rfl (hl.filter _)
  rw [flushed_flows, Shared.flow, accepted_flows] at hgood
  exact hgood

/-- `FinishesFlushed` as a test. -/
def finishesFlushed (c : Listed Shared Thread) (t : Thread) (_ : Choice) : Bool :=
  match t with
  | .finish (.drain _ (.ok ())) =>
    decide (c.shared.write.state.flushWaiters ++ c.shared.write.state.queuedFlushes = [])
  | _ => true

theorem finishesFlushed_sound (c : Listed Shared Thread) (t : Thread) (ch : Choice)
    (h : finishesFlushed c t ch = true) : FinishesFlushed c.config t ch := by
  rintro who rfl
  exact .inl (of_decide_eq_true h)

/-- The write is flushed, and the flush returns. -/
def flushes : Schedule :=
  [(.stream .idle, .pollFlush :: go 3),
   (.writer .top, go 11),
   (.outside .cronet, [.callback (.writeCompleted 0)]),
   (.callback (.entered (.writeCompleted 0)), go 3),
   (.stream .idle, .pollFlush :: go 1)]

theorem flush_covers_flushes :
    let b := Pool.play (step {}) unchecked start (opens ++ writes)
    let c := Pool.play (step {}) finishesFlushed b flushes
    (c.shared.trace = c.shared.trace.dropLast ++ [.polled .flush (.ready 0)] ∧
      b.shared.trace <+: c.shared.trace.dropLast ∧ accepted b.shared.trace = [⟨⟨0, [1]⟩, false⟩]) ∧
      Flushed c.shared.trace.dropLast 1 := by
  refine ⟨by decide +kernel, ?_⟩
  exact flush_covers
    (b := (Pool.play (step {}) unchecked start (opens ++ writes)).config)
    (c := (Pool.play (step {}) finishesFlushed
      (Pool.play (step {}) unchecked start (opens ++ writes)) flushes).config)
    (play_reachable (fun _ _ _ _ => trivial) (opens ++ writes) Reachable.start)
    (by decide +kernel) (by decide +kernel)
    (play_reachable finishesFlushed_sound flushes Reachable.start)
    _ [] (by decide +kernel) (by decide +kernel)

/-- A flush is given up after it was answered, and more is written. -/
def givesUp : Schedule :=
  opens ++ writes ++
  [(.stream .idle, .pollFlush :: go 3),
   (.writer .top, go 11),
   (.outside .cronet, [.callback (.writeCompleted 0)]),
   (.callback (.entered (.writeCompleted 0)), go 3),
   (.stream .idle, .pollWrite [2] 1 3 :: go 2)]

/-- **The answer to a flush that was given up is taken for the next one**, which returns
before what was written in between is handed over. -/
theorem flush_stale : ∃ b c,
    Reachable (step {}) (fun _ _ _ => True) start.config b ∧ .stream .idle ∈ b.threads ∧
      Reachable (step {}) (fun _ _ _ => True) b c ∧
      ∃ l, c.shared.trace = l ++ [.polled .flush (.ready 0)] ∧ b.shared.trace <+: l ∧
        ¬ Flushed l (accepted b.shared.trace).length := by
  let b := Pool.play (step {}) unchecked start givesUp
  let c := Pool.play (step {}) unchecked b [(.stream .idle, .pollFlush :: go 1)]
  refine ⟨b.config, c.config, play_reachable (fun _ _ _ _ => trivial) givesUp Reachable.start,
    by decide +kernel, play_reachable (fun _ _ _ _ => trivial) _ Reachable.start,
    c.shared.trace.dropLast, by decide +kernel, by decide +kernel, ?_⟩
  intro h
  have hlen := h.completed.written
  revert hlen
  decide +kernel

end TokioCronet.Bidirectional
