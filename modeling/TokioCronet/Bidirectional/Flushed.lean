import TokioCronet.Lib.Trace
import TokioCronet.Bidirectional.Pipeline

/-!
# What a flush waits for

A flush is a command in the queue behind the data that was accepted before it. The write
loop comes to it when that data has been handed over, calls the native flush, and answers
it when no write is in flight. So its answer covers what was accepted before it was
enqueued, and that is all it covers: the adapter keeps the receiver of a flush that was
given up, and the next call of `poll_flush` takes its answer for its own. `finish` answers
every flush it finds, and on a stream that has succeeded it answers `Ok`.
-/

namespace TokioCronet.Bidirectional

open Pool

variable {cfg : Settings} {s s' : Flow} {t u : Thread} {ts : List Thread} {rest : Multiset Thread}

/-! ## Completed and flushed -/

/-- How many of the writes are at an address. -/
def writesAt (pointer : Nat) (writes : List InFlightWrite) : Nat :=
  writes.countP (·.data.pointer == pointer)

/-- How many completions have come for an address. -/
def completionsAt (pointer : Nat) (tr : List Event) : Nat :=
  tr.countP (· == .callbackBegun (.writeCompleted pointer))

/-- The first `n` writes were handed to the native stream, and their completions have come. -/
structure Completed (tr : List Event) (n : Nat) : Prop where
  /-- They were handed over. -/
  written : n ≤ (written tr).length
  /-- As many completions have come for each buffer. -/
  completed : ∀ pointer, writesAt pointer ((Bidirectional.written tr).take n) ≤
    completionsAt pointer tr

/-- The native flush was called after the first `n` writes. -/
def FlushCalled (tr : List Event) (n : Nat) : Prop :=
  n = 0 ∨ ∃ l r, tr = l ++ .flush :: r ∧ n ≤ (written l).length

/-- The first `n` writes are out. -/
structure Flushed (tr : List Event) (n : Nat) : Prop where
  /-- They were completed. -/
  completed : Completed tr n
  /-- The native flush was called behind them. -/
  called : FlushCalled tr n

theorem Completed.append {tr : List Event} {n : Nat} (h : Completed tr n) (l : List Event) :
    Completed (tr ++ l) n := by
  refine ⟨?_, ?_⟩
  · rw [written_append, List.length_append]
    exact Nat.le_add_right_of_le h.written
  · intro pointer
    rw [written_append, List.take_append_of_le_length h.written, completionsAt, List.countP_append]
    exact Nat.le_add_right_of_le (h.completed pointer)

theorem FlushCalled.append {tr : List Event} {n : Nat} (h : FlushCalled tr n) (l : List Event) :
    FlushCalled (tr ++ l) n := by
  rcases h with h | ⟨l', r, rfl, hn⟩
  · exact .inl h
  · refine .inr ⟨l', r ++ l, ?_, hn⟩
    rw [List.append_assoc]
    rfl

theorem Completed.le {tr : List Event} {m n : Nat} (h : Completed tr n) (hm : m ≤ n) :
    Completed tr m := by
  refine ⟨hm.trans h.written, ?_⟩
  intro pointer
  have hsub : writesAt pointer ((Bidirectional.written tr).take m) ≤
      writesAt pointer ((Bidirectional.written tr).take n) :=
    (List.take_sublist_take_left hm).countP_le
  exact hsub.trans (h.completed pointer)

theorem FlushCalled.le {tr : List Event} {m n : Nat} (h : FlushCalled tr n) (hm : m ≤ n) :
    FlushCalled tr m := by
  rcases h with rfl | ⟨l, r, heq, hn⟩
  · exact .inl (Nat.le_zero.mp hm)
  · exact .inr ⟨l, r, heq, hm.trans hn⟩

theorem Flushed.le {tr : List Event} {m n : Nat} (h : Flushed tr n) (hm : m ≤ n) : Flushed tr m :=
  ⟨h.completed.le hm, h.called.le hm⟩

/-! ## What the flushes see of the trace -/

theorem accepted_flows {tr : List Event} : accepted (tr.filter Event.flows) = accepted tr := by
  rw [accepted, accepted, List.filterMap_filter]
  congr 1
  funext e
  cases e with
  | callbackBegun c => cases c <;> rfl
  | polled op result => cases result <;> rfl
  | _ => rfl

theorem written_flows {tr : List Event} : written (tr.filter Event.flows) = written tr := by
  rw [written, written, List.filterMap_filter]
  congr 1
  funext e
  cases e with
  | callbackBegun c => cases c <;> rfl
  | polled op result => cases result <;> rfl
  | _ => rfl

theorem completionsAt_flows {pointer : Nat} {tr : List Event} :
    completionsAt pointer (tr.filter Event.flows) = completionsAt pointer tr := by
  rw [completionsAt, completionsAt, List.countP_filter]
  congr 1
  funext e
  by_cases he : e = .callbackBegun (.writeCompleted pointer)
  · rw [he, beq_self_eq_true, Bool.true_and]
    rfl
  · rw [beq_false_of_ne he]
    rfl

theorem completed_flows {tr : List Event} {n : Nat} :
    Completed (tr.filter Event.flows) n ↔ Completed tr n := by
  constructor
  · intro h
    refine ⟨?_, fun pointer => ?_⟩
    · rw [← written_flows]
      exact h.written
    · rw [← written_flows, ← completionsAt_flows]
      exact h.completed pointer
  · intro h
    refine ⟨?_, fun pointer => ?_⟩
    · rw [written_flows]
      exact h.written
    · rw [written_flows, completionsAt_flows]
      exact h.completed pointer

theorem flushCalled_flows {tr : List Event} {n : Nat} :
    FlushCalled (tr.filter Event.flows) n ↔ FlushCalled tr n := by
  constructor
  · rintro (h | ⟨l, r, heq, hn⟩)
    · exact .inl h
    · obtain ⟨l', r', rfl, hl, hr⟩ := List.filter_eq_append_iff.mp heq
      obtain ⟨m, r'', rfl, -, -, hr''⟩ := List.filter_eq_cons_iff.mp hr
      refine .inr ⟨l' ++ m, r'', by simp, ?_⟩
      rw [written_append, List.length_append, ← written_flows, hl]
      exact Nat.le_add_right_of_le hn
  · rintro (h | ⟨l, r, rfl, hn⟩)
    · exact .inl h
    · refine .inr ⟨l.filter Event.flows, r.filter Event.flows, ?_, ?_⟩
      · rw [List.filter_append, List.filter_cons_of_pos rfl]
      · rw [written_flows]
        exact hn

theorem flushed_flows {tr : List Event} {n : Nat} :
    Flushed (tr.filter Event.flows) n ↔ Flushed tr n := by
  constructor
  · intro h
    exact ⟨completed_flows.mp h.completed, flushCalled_flows.mp h.called⟩
  · intro h
    exact ⟨completed_flows.mpr h.completed, flushCalled_flows.mpr h.called⟩

/-! ## Writes in flight -/

/-- A write that is to be handed over, or a completion that is to be taken out. -/
def Thread.owed (pointer : Nat) (t : Thread) : Nat := t.owes pointer + t.completes pointer

/-- The map holds what was written and has not been completed. -/
structure LedgerInv (s : Flow) (threads : Multiset Thread) : Prop where
  /-- The count is the length of the map. -/
  count : s.state.inFlightCount = s.state.inFlight.length
  /-- Who owes a completion has it in the map. -/
  ledger : ∀ pointer, writesAt pointer (written s.trace) + total (Thread.owed pointer) threads ≤
    writesAt pointer s.state.inFlight + completionsAt pointer s.trace

theorem owed_sum {pointer : Nat} : (ts.map (Thread.owed pointer)).sum =
    (ts.map (Thread.owes pointer)).sum + (ts.map (Thread.completes pointer)).sum :=
  List.sum_map_add

theorem remove_queue {w : WriteState} {pointer : Nat} : (w.remove pointer).queue = w.queue := by
  unfold WriteState.remove
  split <;> rfl

theorem remove_count {w : WriteState} {pointer : Nat} (h : w.inFlightCount = w.inFlight.length) :
    (w.remove pointer).inFlightCount = (w.remove pointer).inFlight.length := by
  unfold WriteState.remove
  split
  · rename_i write hw
    change w.inFlightCount - 1 = (w.inFlight.eraseP _).length
    rw [List.length_eraseP_of_mem (List.mem_of_find?_eq_some hw) (List.find?_some hw), h]
  · exact h

/-- Taking a completed write out lowers the count of its address by one at most. -/
theorem remove_writesAt (w : WriteState) (pointer p : Nat) :
    writesAt p w.inFlight ≤
      writesAt p (w.remove pointer).inFlight + if pointer = p then 1 else 0 := by
  unfold WriteState.remove
  split
  · change List.countP _ w.inFlight ≤ List.countP _ (w.inFlight.eraseP _) + _
    rw [List.countP_eq_length_filter, List.countP_eq_length_filter]
    by_cases hp : pointer = p
    · subst hp
      rw [filter_eraseP_self, List.length_tail, if_pos rfl]
      omega
    · rw [filter_eraseP_of_not, if_neg hp]
      · omega
      · intro write hw hp'
        rw [beq_iff_eq] at hw hp'
        exact hp (hw.symm.trans hp')
  · exact Nat.le_add_right _ _

theorem writesAt_append {pointer : Nat} {l l' : List InFlightWrite} :
    writesAt pointer (l ++ l') = writesAt pointer l + writesAt pointer l' := List.countP_append

theorem completionsAt_append {pointer : Nat} {l l' : List Event} :
    completionsAt pointer (l ++ l') = completionsAt pointer l + completionsAt pointer l' :=
  List.countP_append

theorem writesAt_single {pointer : Nat} {data : Buffer} {eos : Bool} :
    writesAt pointer [⟨data, eos⟩] = if data.pointer = pointer then 1 else 0 := by
  rw [writesAt, List.countP_singleton]
  simp only [beq_iff_eq]

theorem completionsAt_single {pointer p : Nat} :
    completionsAt p [.callbackBegun (.writeCompleted pointer)] = if pointer = p then 1 else 0 := by
  rw [completionsAt, List.countP_singleton]
  simp only [beq_iff_eq, Event.callbackBegun.injEq, Callback.writeCompleted.injEq]

theorem completionsAt_answers {pointer : Nat} {waiters : List Waiter} {result : Result Unit} :
    completionsAt pointer (waiters.map fun waiter => .answered waiter result) = 0 := by
  rw [completionsAt, List.countP_map]
  exact List.countP_eq_zero.mpr fun _ _ => by simp

/-- What a step adds on the left it adds on the right or takes from its thread. -/
theorem LedgerInv.moves (h : LedgerInv s (t ::ₘ rest))
    (hcount : s'.state.inFlightCount = s'.state.inFlight.length)
    (hledger : ∀ p, writesAt p (written s'.trace) + (ts.map (Thread.owed p)).sum +
      (writesAt p s.state.inFlight + completionsAt p s.trace) ≤
        writesAt p (written s.trace) + t.owed p +
          (writesAt p s'.state.inFlight + completionsAt p s'.trace)) :
    LedgerInv s' (ts + rest) := by
  refine ⟨hcount, ?_⟩
  intro p
  have hp := h.ledger p
  have hs := hledger p
  rw [total_cons] at hp
  rw [total_add, total_coe]
  omega

/-- A step that writes nothing and completes nothing. -/
theorem LedgerInv.still (h : LedgerInv s (t ::ₘ rest))
    (hf : s'.state.inFlight = s.state.inFlight)
    (hc : s'.state.inFlightCount = s.state.inFlightCount)
    (hw : written s'.trace = written s.trace)
    (hd : ∀ p, completionsAt p s'.trace = completionsAt p s.trace)
    (hts : ∀ p, (ts.map (Thread.owed p)).sum ≤ t.owed p) : LedgerInv s' (ts + rest) := by
  refine h.moves ?_ ?_
  · rw [hf, hc]
    exact h.count
  · intro p
    have hp := hts p
    rw [hf, hw, hd p]
    omega

/-- **Every step keeps the ledger.** -/
theorem ledgerInv_step (h : LedgerInv s (t ::ₘ rest)) (hs : FlowStep cfg s t ts s') :
    LedgerInv s' (ts + rest) := by
  induction hs with
  | quiet hp =>
    refine h.still rfl rfl rfl (fun _ => rfl) fun p => ?_
    rw [owed_sum]
    exact Nat.add_le_add (hp.owes p) (hp.completes p)
  | popData ht _ hts | register ht _ hts | begins ht _ hts =>
    subst ht hts
    exact h.still rfl rfl rfl (fun _ => rfl) fun _ => le_rfl
  | popFlush ht _ _ hts =>
    subst ht hts
    exact h.still rfl rfl rfl (fun _ => rfl) fun _ => le_rfl
  | opens ht hts | starts ht hts | enqueues ht hts | stores ht hts =>
    subst ht hts
    exact h.still rfl rfl rfl (fun _ => rfl) fun _ => le_rfl
  | waits ht hts _ =>
    subst ht hts
    exact h.still rfl rfl rfl (fun _ => rfl) fun _ => le_rfl
  | flush ht hts | refuses ht hts | fails ht hts _ | polls ht _ hts _ =>
    subst ht hts
    refine h.still rfl rfl ?_ ?_ fun _ => le_rfl
    · exact (written_append _ _).trans (List.append_nil _)
    · exact fun _ => completionsAt_append
  | answers ht _ hts | accepts ht _ hts | receives ht _ _ hts | ends ht _ hts =>
    subst ht hts
    refine h.still rfl rfl ?_ ?_ fun _ => le_rfl
    · exact (written_append _ _).trans (List.append_nil _)
    · exact fun _ => completionsAt_append
  | drain ht hts =>
    subst ht hts
    refine h.still rfl rfl ?_ ?_ fun _ => le_rfl
    · rw [written_append, written_answers, List.append_nil]
    · intro p
      rw [completionsAt_append, completionsAt_answers, Nat.add_zero]
  | @push data eos ht hts =>
    subst ht hts
    refine h.moves ?_ ?_
    · show _ = (s.state.inFlight ++ [_]).length
      rw [List.length_append, ← h.count]
      rfl
    · intro p
      show writesAt p (written s.trace) + ((if data.pointer = p then 1 else 0) + 0 + 0) +
          (writesAt p s.state.inFlight + completionsAt p s.trace) ≤
        writesAt p (written s.trace) + 0 +
          (writesAt p (s.state.inFlight ++ [⟨data, eos⟩]) + completionsAt p s.trace)
      rw [writesAt_append, writesAt_single]
      omega
  | @write data eos e ht hts =>
    subst ht hts
    refine h.moves h.count ?_
    intro p
    have hone : writesAt p (written [.write data eos]) = if data.pointer = p then 1 else 0 :=
      writesAt_single
    show writesAt p (written (s.trace ++ [.write data eos])) + 0 +
        (writesAt p s.state.inFlight + completionsAt p s.trace) ≤
      writesAt p (written s.trace) + ((if data.pointer = p then 1 else 0) + 0) +
        (writesAt p s.state.inFlight + completionsAt p (s.trace ++ [.write data eos]))
    rw [written_append, writesAt_append, completionsAt_append, hone]
    omega
  | @calls pointer ht hts =>
    subst ht hts
    refine h.moves h.count ?_
    intro p
    have hnone : writesAt p (written [.callbackBegun (.writeCompleted pointer)]) = 0 := rfl
    show writesAt p (written (s.trace ++ [.callbackBegun (.writeCompleted pointer)])) +
        (0 + (0 + (if pointer = p then 1 else 0) + 0)) +
        (writesAt p s.state.inFlight + completionsAt p s.trace) ≤
      writesAt p (written s.trace) + 0 + (writesAt p s.state.inFlight +
        completionsAt p (s.trace ++ [.callbackBegun (.writeCompleted pointer)]))
    rw [written_append, writesAt_append, completionsAt_append, completionsAt_single, hnone]
    omega
  | @completes pointer ht hts =>
    subst ht hts
    refine h.moves (remove_count h.count) ?_
    intro p
    have hremove := remove_writesAt s.state pointer p
    show writesAt p (written s.trace) + 0 +
      (writesAt p s.state.inFlight + completionsAt p s.trace) ≤
      writesAt p (written s.trace) + (0 + if pointer = p then 1 else 0) +
        (writesAt p (s.state.remove pointer).inFlight + completionsAt p s.trace)
    omega
  | @unblocks pointer ht hzero hts =>
    subst ht hts
    refine h.moves (remove_count h.count) ?_
    intro p
    have hremove := remove_writesAt s.state pointer p
    show writesAt p (written (s.trace ++ _)) + 0 +
        (writesAt p s.state.inFlight + completionsAt p s.trace) ≤
      writesAt p (written s.trace) + (0 + if pointer = p then 1 else 0) +
        (writesAt p (s.state.remove pointer).inFlight + completionsAt p (s.trace ++ _))
    rw [written_append, written_answers, List.append_nil, completionsAt_append,
      completionsAt_answers]
    omega

theorem ledgerInv_init : LedgerInv (Shared.flow {}) start.config.threads where
  count := rfl
  ledger := by
    intro p
    exact le_rfl

theorem ledgerInv_reachable {allowed : Policy Shared Thread Choice} {c : Config Shared Thread}
    (h : Reachable (step cfg) allowed start.config c) : LedgerInv c.shared.flow c.threads := by
  refine h.invariant (P := fun c => LedgerInv c.shared.flow c.threads) ledgerInv_init ?_
  rintro _ _ - hi ⟨-, hn⟩
  exact ledgerInv_step hi (step_flow hn)

/-- **When no write is in flight**, what was written has been completed. -/
theorem LedgerInv.completed {threads : Multiset Thread} {n : Nat} (h : LedgerInv s threads)
    (hzero : s.state.inFlightCount = 0) (hn : n ≤ (written s.trace).length) :
    Completed s.trace n := by
  refine ⟨hn, ?_⟩
  intro p
  have hnil : s.state.inFlight = [] := List.length_eq_zero_iff.mp (h.count ▸ hzero)
  have hledger := h.ledger p
  rw [hnil] at hledger
  have hsub : writesAt p ((written s.trace).take n) ≤ writesAt p (written s.trace) :=
    (List.take_sublist n _).countP_le
  have hnone : writesAt p [] = 0 := rfl
  omega

/-! ## The flushes that were begun later -/

/-- How many data commands are in a queue. -/
def dataCount (queue : List WriteCommand) : Nat :=
  ({ queue := queue } : WriteState).queuedData.length

/-- The first `n` writes are dealt with before the flushes from `first` on: where such a
flush is, what it says of them. `Good` is what its answer says. -/
structure Covering (Good : List Event → Prop) (n : Nat) (first : Waiter) (s : Flow)
    (threads : Multiset Thread) : Prop where
  /-- The writes were accepted. -/
  accepted : n ≤ (accepted s.trace).length
  /-- A flush in the queue stands behind them. -/
  queued : ∀ l w r, s.state.queue = l ++ .flush w :: r → first ≤ w →
    n + dataCount r ≤ (Bidirectional.accepted s.trace).length
  /-- A flush that is carried has them before it, and the native flush behind them if it was
  called. -/
  carried : ∀ t ∈ threads, ∀ w called, t.carries = some (w, called) → first ≤ w →
    n ≤ (written s.trace).length ∧ (called = true → FlushCalled s.trace n)
  /-- A flush that waits has them before it, and the native flush behind them. -/
  waiting : ∀ w ∈ s.state.flushWaiters, first ≤ w →
    n ≤ (written s.trace).length ∧ FlushCalled s.trace n
  /-- A flush that was answered says it. -/
  answered : ∀ w, .answered w (.ok ()) ∈ s.trace → first ≤ w → Good s.trace

/-- What the answers of a set of flushes say once is true from then on. -/
structure Lasting (Good : List Event → Prop) (n : Nat) : Prop where
  /-- Writes that are out make it true. -/
  flushed : ∀ {tr}, Flushed tr n → Good tr
  /-- It stays true. -/
  append : ∀ {tr} l, Good tr → Good (tr ++ l)

theorem Flushed.append {tr : List Event} {n : Nat} (h : Flushed tr n) (l : List Event) :
    Flushed (tr ++ l) n :=
  ⟨h.completed.append l, h.called.append l⟩

theorem lasting_flushed {n : Nat} : Lasting (fun tr => Flushed tr n) n :=
  ⟨fun h => h, fun l h => h.append l⟩

section

variable {Good : List Event → Prop} {n : Nat} {first : Waiter}

theorem dataCount_append {l r : List WriteCommand} :
    dataCount (l ++ r) = dataCount l + dataCount r := by
  rw [dataCount, queuedData_append (w := { queue := l }) rfl, List.length_append]
  rfl

/-- A step that adds to the trace, takes commands out of the queue and lets no flush get
further than it was. -/
theorem Covering.frame {l : List Event} (h : Covering Good n first s (t ::ₘ rest))
    (hgood : Lasting Good n) (htr : s'.trace = s.trace ++ l)
    (hq : ∀ l w r, s'.state.queue = l ++ .flush w :: r → first ≤ w →
      n + dataCount r ≤ (Bidirectional.accepted s'.trace).length)
    (hcarried : ∀ u ∈ ts, ∀ w called, u.carries = some (w, called) → first ≤ w →
      n ≤ (written s'.trace).length ∧ (called = true → FlushCalled s'.trace n))
    (hwaiting : ∀ w ∈ s'.state.flushWaiters, w ∉ s.state.flushWaiters → first ≤ w →
      n ≤ (written s'.trace).length ∧ FlushCalled s'.trace n)
    (hanswered : ∀ w, .answered w (.ok ()) ∈ l → first ≤ w → Good s'.trace) :
    Covering Good n first s' (ts + rest) := by
  have hwritten : (written s.trace).length ≤ (written s'.trace).length := by
    rw [htr, written_append, List.length_append]
    exact Nat.le_add_right _ _
  have hcalled : FlushCalled s.trace n → FlushCalled s'.trace n := by
    intro hc
    rw [htr]
    exact hc.append l
  refine ⟨?_, hq, ?_, ?_, ?_⟩
  · rw [htr, accepted_append, List.length_append]
    exact Nat.le_add_right_of_le h.accepted
  · intro u hu w called hc hw
    rcases Multiset.mem_add.mp hu with hu | hu
    · exact hcarried u (Multiset.mem_coe.mp hu) w called hc hw
    · obtain ⟨hn, hf⟩ := h.carried u (Multiset.mem_cons_of_mem hu) w called hc hw
      exact ⟨hn.trans hwritten, fun hc => hcalled (hf hc)⟩
  · intro w hw hfirst
    by_cases hold : w ∈ s.state.flushWaiters
    · obtain ⟨hn, hf⟩ := h.waiting w hold hfirst
      exact ⟨hn.trans hwritten, hcalled hf⟩
    · exact hwaiting w hw hold hfirst
  · intro w hw hfirst
    rw [htr] at hw ⊢
    rcases List.mem_append.mp hw with hw | hw
    · exact hgood.append l (h.answered w hw hfirst)
    · exact htr ▸ hanswered w hw hfirst

/-- What stood behind a flush in the queue still does. -/
theorem Covering.popped {l : List Event} {threads : Multiset Thread}
    (h : Covering Good n first s threads) (popped : List WriteCommand)
    (htr : s'.trace = s.trace ++ l)
    (hq : s.state.queue = popped ++ s'.state.queue) :
    ∀ l w r, s'.state.queue = l ++ .flush w :: r → first ≤ w →
      n + dataCount r ≤ (Bidirectional.accepted s'.trace).length := by
  intro l' w r heq hw
  have hle := h.queued (popped ++ l') w r (by rw [hq, heq, List.append_assoc]) hw
  rw [htr, accepted_append, List.length_append]
  exact Nat.le_add_right_of_le hle

/-- A command is put behind the others, and counted if it is a write. -/
theorem Covering.pushed {l : List Event} {command : WriteCommand} {threads : Multiset Thread}
    (h : Covering Good n first s threads) (htr : s'.trace = s.trace ++ l)
    (hq : s'.state.queue = s.state.queue ++ [command])
    (hcount : dataCount [command] = (Bidirectional.accepted l).length) :
    ∀ l w r, s'.state.queue = l ++ .flush w :: r → first ≤ w →
      n + dataCount r ≤ (Bidirectional.accepted s'.trace).length := by
  intro l' w r heq hw
  rw [htr, accepted_append, List.length_append]
  rcases Trace.split_append (hq ▸ heq) with ⟨rfl, -, -⟩ | ⟨r', rfl, hold⟩
  · exact Nat.le_add_right_of_le h.accepted
  · have hle := h.queued l' w r' hold hw
    rw [dataCount_append, hcount]
    omega

/-- A step that only takes its thread further. -/
theorem Covering.still {l : List Event} (h : Covering Good n first s (t ::ₘ rest))
    (hgood : Lasting Good n) (htr : s'.trace = s.trace ++ l)
    (hq : s'.state.queue = s.state.queue) (hw : s'.state.flushWaiters = s.state.flushWaiters)
    (hts : ∀ u ∈ ts, ∀ x, u.carries = some x → t.carries = some x)
    (hl : ∀ w, .answered w (.ok ()) ∉ l) : Covering Good n first s' (ts + rest) := by
  refine h.frame hgood htr (h.popped [] htr hq.symm) ?_ ?_ ?_
  · intro u hu w called hc hfirst
    obtain ⟨hn, hf⟩ := h.carried t (Multiset.mem_cons_self t rest) w called (hts u hu _ hc) hfirst
    rw [htr]
    refine ⟨?_, fun hc => (hf hc).append l⟩
    rw [written_append, List.length_append]
    exact Nat.le_add_right_of_le hn
  · intro w hw' hnot
    rw [hw] at hw'
    exact absurd hw' hnot
  · intro w hw'
    exact absurd hw' (hl w)

theorem carries_none {u : Thread} {P : Waiter × Bool → Prop} (h : u.carries = none) :
    ∀ v ∈ [u], ∀ x, v.carries = some x → P x := by
  intro v hv x hx
  rw [List.mem_singleton] at hv
  rw [hv, h] at hx
  cases hx

theorem carried_none {u : Thread} {P : Waiter → Bool → Prop} (h : u.carries = none) :
    ∀ v ∈ [u], ∀ w called, v.carries = some (w, called) → P w called :=
  fun v hv w called => carries_none (P := fun x => P x.1 x.2) h v hv (w, called)

theorem carried_one {u : Thread} {P : Waiter → Bool → Prop} {w : Waiter} {called : Bool}
    (h : u.carries = some (w, called)) (hp : P w called) :
    ∀ v ∈ [u], ∀ w called, v.carries = some (w, called) → P w called := by
  intro v hv w' called' hc
  rw [List.mem_singleton] at hv
  rw [hv, h] at hc
  cases hc
  exact hp

theorem mem_answers {w : Waiter} {waiters : List Waiter} {result result' : Result Unit}
    (h : Event.answered w result ∈ waiters.map fun waiter => Event.answered waiter result') :
    w ∈ waiters ∧ result = result' := by
  obtain ⟨w', hw', heq⟩ := List.mem_map.mp h
  rw [Event.answered.injEq] at heq
  exact ⟨heq.1 ▸ hw', heq.2.symm⟩

/-- The write loop takes a flush out of the queue: all the writes before it are out. -/
theorem written_popped {epoch : Nat} {w : Waiter} {queue : List WriteCommand}
    (h : Covering Good n first s (.writer (.pop epoch) ::ₘ rest))
    (hq : s.state.queue = .flush w :: queue) (hw : first ≤ w)
    (hsync : accepted s.trace = written s.trace ++ s.state.queuedData) :
    n ≤ (written s.trace).length := by
  have hle := h.queued [] w queue hq hw
  have hdata : s.state.queuedData = { s.state with queue := queue }.queuedData :=
    queuedData_flush hq
  have hlen : (accepted s.trace).length = (written s.trace).length + dataCount queue := by
    rw [hsync, hdata, List.length_append]
    rfl
  omega

/-- The native flush is called for the flush that is carried. -/
theorem Covering.flushed {waiter : Waiter}
    (h : Covering Good n first s (.control (.call (.flush waiter)) ::ₘ rest))
    (hgood : Lasting Good n) :
    Covering Good n first { s with trace := s.trace ++ [.flush] }
      (([.control (.unlock (.flush waiter) none)] : List Thread) + rest) := by
  refine h.frame hgood rfl (h.popped [] rfl rfl) (carried_one rfl ?_)
    (fun w hw hnot => absurd hw hnot) (by simp)
  intro hw
  obtain ⟨hn, -⟩ := h.carried _ (Multiset.mem_cons_self _ rest) waiter false rfl hw
  refine ⟨?_, fun _ => .inr ⟨s.trace, [], rfl, hn⟩⟩
  show n ≤ (written (s.trace ++ [.flush])).length
  rw [written_append, List.length_append]
  exact Nat.le_add_right_of_le hn

/-- The flush waits for the writes in flight. -/
theorem Covering.registers {waiter : Waiter}
    (h : Covering Good n first s (.writer (.register waiter) ::ₘ rest))
    (hgood : Lasting Good n) :
    Covering Good n first
      { s with state.flushBlocked := true,
               state.flushWaiters := s.state.flushWaiters ++ [waiter] }
      (([.writer .top] : List Thread) + rest) := by
  have htr : s.trace = s.trace ++ [] := (List.append_nil _).symm
  refine h.frame hgood htr (h.popped [] htr rfl) (carried_none rfl) ?_ nofun
  intro w hw hnot hfirst
  rcases List.mem_append.mp hw with hw | hw
  · exact absurd hw hnot
  · rw [List.mem_singleton] at hw
    subst hw
    obtain ⟨hn, hf⟩ := h.carried _ (Multiset.mem_cons_self _ rest) w true rfl hfirst
    exact ⟨hn, hf rfl⟩

/-- No write is in flight, and the flush is answered at once. -/
theorem Covering.answers {waiter : Waiter}
    (h : Covering Good n first s (.writer (.register waiter) ::ₘ rest))
    (hgood : Lasting Good n) (hledger : LedgerInv s (.writer (.register waiter) ::ₘ rest))
    (hzero : s.state.inFlightCount = 0) :
    Covering Good n first { s with trace := s.trace ++ [.answered waiter (.ok ())] }
      (([.writer .top] : List Thread) + rest) := by
  refine h.frame hgood rfl (h.popped [] rfl rfl) (carried_none rfl)
    (fun w hw hnot => absurd hw hnot) ?_
  intro w hw hfirst
  rw [List.mem_singleton, Event.answered.injEq] at hw
  obtain ⟨hw, -⟩ := hw
  obtain ⟨hn, hf⟩ :=
    h.carried _ (Multiset.mem_cons_self _ rest) waiter true rfl (hw ▸ hfirst)
  exact hgood.append _ (hgood.flushed ⟨hledger.completed hzero hn, hf rfl⟩)

/-- The last completion answers the flushes that wait. -/
theorem Covering.unblocks {pointer : Nat}
    (h : Covering Good n first s (.callback (.complete pointer) ::ₘ rest))
    (hgood : Lasting Good n)
    (hs' : s'.state = { s.state.remove pointer with flushBlocked := false, flushWaiters := [] })
    (htr : s'.trace = s.trace ++ s.state.flushWaiters.map fun waiter => .answered waiter (.ok ()))
    (hledger : LedgerInv s' (([.callback .wake] : List Thread) + rest))
    (hzero : (s.state.remove pointer).inFlightCount = 0) :
    Covering Good n first s' (([.callback .wake] : List Thread) + rest) := by
  refine h.frame hgood htr (h.popped [] htr ?_) (carried_none rfl) ?_ ?_
  · rw [hs']
    exact remove_queue.symm
  · intro w hw
    rw [hs'] at hw
    cases hw
  · intro w hw hfirst
    obtain ⟨hw, -⟩ := mem_answers hw
    obtain ⟨hn, hf⟩ := h.waiting w hw hfirst
    rw [htr]
    refine hgood.flushed ⟨htr ▸ hledger.completed (hs' ▸ hzero) ?_, hf.append _⟩
    rw [htr, written_append, List.length_append]
    exact Nat.le_add_right_of_le hn

/-- `finish` answers all the flushes that it finds. -/
theorem Covering.drains {who : Finisher} {result : Result Unit}
    (h : Covering Good n first s (.finish (.drain who result) ::ₘ rest))
    (hgood : Lasting Good n)
    (hfinish : result = .ok () →
      s.state.flushWaiters ++ s.state.queuedFlushes = [] ∨ Good s.trace) :
    Covering Good n first
      { s with
        state := { s.state with terminal := some result, flushWaiters := [], queue := [] },
        trace := s.trace ++ (s.state.flushWaiters ++ s.state.queuedFlushes).map
          fun waiter => .answered waiter result }
      (([.finish (.wake who result)] : List Thread) + rest) := by
  refine h.frame hgood rfl (h.popped _ rfl (List.append_nil _).symm) (carried_none rfl) nofun ?_
  intro w hw hfirst
  obtain ⟨hw, rfl⟩ := mem_answers hw
  rcases hfinish rfl with hnil | hg
  · rw [hnil] at hw
    cases hw
  · exact hgood.append _ hg

/-- **Every step keeps what a flush covers**, where `finish` finds no flush waiting or what
its answer says is true. -/
theorem covering_step (h : Covering Good n first s (t ::ₘ rest)) (hgood : Lasting Good n)
    (hledger : LedgerInv s (t ::ₘ rest))
    (hsync : ∀ epoch, t = .writer (.pop epoch) → s.state.terminal = none →
      accepted s.trace = written s.trace ++ s.state.queuedData)
    (hfinish : ∀ who, t = .finish (.drain who (.ok ())) →
      s.state.flushWaiters ++ s.state.queuedFlushes = [] ∨ Good s.trace)
    (hs : FlowStep cfg s t ts s') : Covering Good n first s' (ts + rest) := by
  have hledger' := ledgerInv_step hledger hs
  have htr : s.trace = s.trace ++ [] := (List.append_nil _).symm
  induction hs with
  | quiet hp => exact h.still hgood htr rfl rfl hp.carries nofun
  | begins ht _ hts | waits ht hts _ | starts ht hts | stores ht hts | push ht hts =>
    subst ht hts
    exact h.still hgood htr rfl rfl (carries_none rfl) nofun
  | opens ht hts =>
    subst ht hts
    exact h.still hgood htr rfl rfl (by simp [Thread.carries]) nofun
  | completes ht hts =>
    subst ht hts
    exact h.still hgood htr remove_queue remove_flushWaiters (carries_none rfl) nofun
  | write ht hts | refuses ht hts | fails ht hts _ =>
    subst ht hts
    exact h.still hgood rfl rfl rfl (carries_none rfl) (by simp)
  | calls ht hts =>
    subst ht hts
    exact h.still hgood rfl rfl rfl (by simp [Thread.carries]) (by simp)
  | receives ht _ _ hts | ends ht _ hts | polls ht _ hts _ =>
    subst ht hts
    exact h.still hgood rfl rfl rfl (carries_none rfl) (by simp)
  | popData ht hq hts =>
    subst ht hts
    exact h.frame hgood htr (h.popped [_] htr hq) (carried_none rfl)
      (fun w hw hnot => absurd hw hnot) nofun
  | popFlush ht hterm hq hts =>
    subst ht hts
    refine h.frame hgood htr (h.popped [_] htr hq) (carried_one rfl fun hw => ?_)
      (fun w hw hnot => absurd hw hnot) nofun
    have hn := written_popped h hq hw (hsync _ rfl hterm)
    exact ⟨hn, nofun⟩
  | flush ht hts =>
    subst ht hts
    exact h.flushed hgood
  | register ht _ hts =>
    subst ht hts
    exact h.registers hgood
  | answers ht hzero hts =>
    subst ht hts
    exact h.answers hgood hledger hzero
  | unblocks ht hzero hts =>
    subst ht hts
    exact h.unblocks hgood rfl rfl hledger' hzero
  | @drain who result ht hts =>
    subst ht hts
    exact h.drains hgood (fun hresult => hfinish who (hresult ▸ rfl))
  | accepts ht _ hts =>
    subst ht hts
    exact h.frame hgood rfl (h.pushed rfl rfl rfl) (carried_none rfl)
      (fun w hw hnot => absurd hw hnot) (by simp)
  | enqueues ht hts =>
    subst ht hts
    exact h.frame hgood htr (h.pushed htr rfl rfl) (carried_none rfl)
      (fun w hw hnot => absurd hw hnot) nofun

end

/-! ## The number of a flush is new -/

/-- Every flush that is somewhere has a number that was given out. -/
structure FreshInv (s : Flow) (threads : Multiset Thread) : Prop where
  /-- In the queue. -/
  queued : ∀ w, .flush w ∈ s.state.queue → w < s.next
  /-- Among the flushes that wait. -/
  waiting : ∀ w ∈ s.state.flushWaiters, w < s.next
  /-- Among the answered ones. -/
  answered : ∀ w, .answered w (.ok ()) ∈ s.trace → w < s.next
  /-- With a thread of the write loop. -/
  carried : ∀ t ∈ threads, ∀ w called, t.carries = some (w, called) → w < s.next
  /-- With a thread of the adapter. -/
  brought : ∀ t ∈ threads, ∀ w, t.brings = some w → w < s.next

theorem FreshInv.frame {l : List Event} (h : FreshInv s (t ::ₘ rest)) (hnext : s.next ≤ s'.next)
    (htr : s'.trace = s.trace ++ l)
    (hq : ∀ w, .flush w ∈ s'.state.queue → .flush w ∈ s.state.queue ∨ w < s'.next)
    (hw : ∀ w ∈ s'.state.flushWaiters, w ∈ s.state.flushWaiters ∨ w < s'.next)
    (hl : ∀ w, .answered w (.ok ()) ∈ l → w < s'.next)
    (hcarried : ∀ u ∈ ts, ∀ w called, u.carries = some (w, called) → w < s'.next)
    (hbrought : ∀ u ∈ ts, ∀ w, u.brings = some w → w < s'.next) : FreshInv s' (ts + rest) := by
  refine ⟨?_, ?_, ?_, ?_, ?_⟩
  · intro w hw
    rcases hq w hw with hw | hw
    · exact (h.queued w hw).trans_le hnext
    · exact hw
  · intro w hw'
    rcases hw w hw' with hw' | hw'
    · exact (h.waiting w hw').trans_le hnext
    · exact hw'
  · intro w hw'
    rw [htr] at hw'
    rcases List.mem_append.mp hw' with hw' | hw'
    · exact (h.answered w hw').trans_le hnext
    · exact hl w hw'
  · intro u hu w called hc
    rcases Multiset.mem_add.mp hu with hu | hu
    · exact hcarried u (Multiset.mem_coe.mp hu) w called hc
    · exact (h.carried u (Multiset.mem_cons_of_mem hu) w called hc).trans_le hnext
  · intro u hu w hb
    rcases Multiset.mem_add.mp hu with hu | hu
    · exact hbrought u (Multiset.mem_coe.mp hu) w hb
    · exact (h.brought u (Multiset.mem_cons_of_mem hu) w hb).trans_le hnext

/-- A step that gives out no number and moves no flush. -/
theorem FreshInv.still {l : List Event} (h : FreshInv s (t ::ₘ rest)) (hnext : s.next ≤ s'.next)
    (htr : s'.trace = s.trace ++ l)
    (hq : ∀ w, .flush w ∈ s'.state.queue → .flush w ∈ s.state.queue)
    (hw : ∀ w ∈ s'.state.flushWaiters, w ∈ s.state.flushWaiters)
    (hl : ∀ w, .answered w (.ok ()) ∈ l → w < s'.next)
    (hcarried : ∀ u ∈ ts, ∀ x, u.carries = some x → t.carries = some x)
    (hbrought : ∀ u ∈ ts, u.brings = none) : FreshInv s' (ts + rest) := by
  refine h.frame hnext htr (fun w hm => .inl (hq w hm)) (fun w hm => .inl (hw w hm)) hl ?_ ?_
  · intro u hu w called hc
    exact (h.carried t (Multiset.mem_cons_self t rest) w called (hcarried u hu _ hc)).trans_le hnext
  · intro u hu w hb
    rw [hbrought u hu] at hb
    cases hb

theorem carries_one {u : Thread} (h : u.carries = none) :
    ∀ v ∈ [u], ∀ x, v.carries = some x → t.carries = some x :=
  carries_none h

theorem brings_one {u : Thread} (h : u.brings = none) : ∀ v ∈ [u], v.brings = none :=
  List.forall_mem_singleton.mpr h

theorem brought_none {u : Thread} {P : Waiter → Prop} (h : u.brings = none) :
    ∀ v ∈ [u], ∀ w, v.brings = some w → P w := by
  intro v hv w hb
  rw [List.mem_singleton] at hv
  rw [hv, h] at hb
  cases hb

theorem brought_one {u : Thread} {P : Waiter → Prop} {w : Waiter} (h : u.brings = some w)
    (hp : P w) : ∀ v ∈ [u], ∀ w, v.brings = some w → P w := by
  intro v hv w' hb
  rw [List.mem_singleton] at hv
  rw [hv, h] at hb
  cases hb
  exact hp

/-- `finish` answers flushes that were there. -/
theorem FreshInv.drained {threads : Multiset Thread} (h : FreshInv s threads) {w : Waiter}
    (hw : w ∈ s.state.flushWaiters ++ s.state.queuedFlushes) : w < s.next := by
  rcases List.mem_append.mp hw with hw | hw
  · exact h.waiting w hw
  · obtain ⟨command, hc, heq⟩ := List.mem_filterMap.mp hw
    cases command with
    | data => cases heq
    | flush waiter =>
      cases heq
      exact h.queued w hc

/-- A step that takes commands out of the queue. -/
theorem mem_popped (popped : List WriteCommand) {queue : List WriteCommand}
    (hq : s.state.queue = popped ++ queue) :
    ∀ w, .flush w ∈ queue → .flush w ∈ s.state.queue := by
  intro w hw
  rw [hq]
  exact List.mem_append_right popped hw

/-- A number at the end of a list. -/
theorem mem_pushed {α : Type} {P Q : Waiter → Prop} {l : List α} {f : Waiter → α}
    (hf : Function.Injective f) {waiter : Waiter} (hp : ∀ w, f w ∈ l → P w) (hq : Q waiter) :
    ∀ w, f w ∈ l ++ [f waiter] → P w ∨ Q w := by
  intro w hw
  rcases List.mem_append.mp hw with hw | hw
  · exact .inl (hp w hw)
  · exact .inr (hf (List.mem_singleton.mp hw) ▸ hq)

/-- **Every step keeps the numbers new.** -/
theorem freshInv_step (h : FreshInv s (t ::ₘ rest)) (hs : FlowStep cfg s t ts s') :
    FreshInv s' (ts + rest) := by
  have hmem : t ∈ t ::ₘ rest := Multiset.mem_cons_self t rest
  have htr : s.trace = s.trace ++ [] := (List.append_nil _).symm
  induction hs with
  | quiet hp => exact h.still le_rfl htr (fun _ => id) (fun _ => id) nofun hp.carries hp.brings
  | waits ht hts _ | push ht hts | stores ht hts =>
    subst ht hts
    exact h.still le_rfl htr (fun _ => id) (fun _ => id) nofun (carries_one rfl) (brings_one rfl)
  | opens ht hts =>
    subst ht hts
    exact h.still le_rfl htr (fun _ => id) (fun _ => id) nofun (by simp [Thread.carries])
      (by simp [Thread.brings])
  | write ht hts | refuses ht hts | fails ht hts _ =>
    subst ht hts
    exact h.still le_rfl rfl (fun _ => id) (fun _ => id) (by simp) (carries_one rfl)
      (brings_one rfl)
  | receives ht _ _ hts | ends ht _ hts | polls ht _ hts _ =>
    subst ht hts
    exact h.still le_rfl rfl (fun _ => id) (fun _ => id) (by simp) (carries_one rfl)
      (brings_one rfl)
  | calls ht hts =>
    subst ht hts
    exact h.still le_rfl rfl (fun _ => id) (fun _ => id) (by simp) (by simp [Thread.carries])
      (by simp [Thread.brings])
  | accepts ht _ hts =>
    subst ht hts
    exact h.still le_rfl rfl (by simp) (fun _ => id) (by simp) (carries_one rfl) (brings_one rfl)
  | completes ht hts =>
    subst ht hts
    exact h.still le_rfl htr (mem_popped [] remove_queue.symm)
      (fun w hw => (remove_flushWaiters (w := s.state)) ▸ hw) nofun (carries_one rfl)
      (brings_one rfl)
  | unblocks ht _ hts =>
    subst ht hts
    exact h.still le_rfl rfl (mem_popped [] remove_queue.symm) nofun
      (fun w hw => h.waiting w (mem_answers hw).1) (carries_one rfl) (brings_one rfl)
  | drain ht hts =>
    subst ht hts
    exact h.still le_rfl rfl nofun nofun (fun w hw => h.drained (mem_answers hw).1)
      (carries_one rfl) (brings_one rfl)
  | popData ht hq hts =>
    subst ht hts
    exact h.still le_rfl htr (mem_popped [_] hq) (fun _ => id) nofun (carries_one rfl)
      (brings_one rfl)
  | @popFlush epoch waiter queue ht _ hq hts =>
    subst ht hts
    have hlt : waiter < s.next := h.queued waiter (by rw [hq]; exact List.mem_cons_self)
    exact h.frame le_rfl htr (fun w hw => .inl (mem_popped [_] hq w hw))
      (fun _ => .inl) nofun (carried_one rfl hlt) (brought_none rfl)
  | @flush waiter ht hts =>
    subst ht hts
    have hlt : waiter < s.next := h.carried _ hmem waiter false rfl
    exact h.frame le_rfl rfl (fun _ => .inl) (fun _ => .inl) (by simp) (carried_one rfl hlt)
      (brought_none rfl)
  | @register waiter ht _ hts =>
    subst ht hts
    have hlt : waiter < s.next := h.carried _ hmem waiter true rfl
    exact h.frame le_rfl htr (fun _ => .inl)
      (mem_pushed (f := id) Function.injective_id (fun _ => id) hlt) nofun (carried_none rfl)
      (brought_none rfl)
  | @answers waiter ht _ hts =>
    subst ht hts
    have hlt : waiter < s.next := h.carried _ hmem waiter true rfl
    refine h.still le_rfl rfl (fun _ => id) (fun _ => id) ?_ (carries_one rfl) (brings_one rfl)
    intro w hw
    rw [List.mem_singleton, Event.answered.injEq] at hw
    exact hw.1 ▸ hlt
  | begins ht _ hts | starts ht hts =>
    subst ht hts
    exact h.frame (Nat.le_succ _) htr (fun _ => .inl) (fun _ => .inl) nofun (carried_none rfl)
      (brought_one rfl (Nat.lt_succ_self _))
  | @enqueues op waiter ht hts =>
    subst ht hts
    have hlt : waiter < s.next := h.brought _ hmem waiter rfl
    exact h.frame le_rfl htr
      (mem_pushed (fun _ _ => WriteCommand.flush.inj) (fun _ => id) hlt) (fun _ => .inl) nofun
      (carried_none rfl) (brought_one rfl hlt)

theorem freshInv_init : FreshInv (Shared.flow {}) start.config.threads where
  queued := nofun
  waiting := nofun
  answered := nofun
  carried := by
    intro t ht w called hc
    rw [Listed.config, start, Multiset.mem_coe] at ht
    simp only [List.mem_cons, List.not_mem_nil, or_false] at ht
    rcases ht with rfl | rfl | rfl <;> cases hc
  brought := by
    intro t ht w hb
    rw [Listed.config, start, Multiset.mem_coe] at ht
    simp only [List.mem_cons, List.not_mem_nil, or_false] at ht
    rcases ht with rfl | rfl | rfl <;> cases hb

theorem freshInv_reachable {allowed : Policy Shared Thread Choice} {c : Config Shared Thread}
    (h : Reachable (step cfg) allowed start.config c) : FreshInv c.shared.flow c.threads := by
  refine h.invariant (P := fun c => FreshInv c.shared.flow c.threads) freshInv_init ?_
  rintro _ _ - hi ⟨-, hn⟩
  exact freshInv_step hi (step_flow hn)

/-- Nothing is said yet of the flushes that are still to come. -/
theorem FreshInv.covering {Good : List Event → Prop} {threads : Multiset Thread}
    (h : FreshInv s threads) : Covering Good (accepted s.trace).length s.next s threads where
  accepted := le_rfl
  queued := by
    intro l w r heq hw
    have hlt := h.queued w (by rw [heq]; exact List.mem_append_right l List.mem_cons_self)
    exact absurd hw hlt.not_ge
  carried := fun t ht w called hc hw => absurd hw (h.carried t ht w called hc).not_ge
  waiting := fun w hw hfirst => absurd hfirst (h.waiting w hw).not_ge
  answered := fun w hw hfirst => absurd hfirst (h.answered w hw).not_ge

end TokioCronet.Bidirectional
