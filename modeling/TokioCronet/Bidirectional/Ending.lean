import Mathlib.Data.List.TakeWhile
import TokioCronet.Bidirectional.Barrier

/-!
# What `poll_shutdown` may conclude

`poll_shutdown` enqueues the end of the stream and a flush behind it, and takes the answer
to that flush for the end of the write side. It infers its success from the adapter: the
shutdown was started, and no receiver is left. A receiver is also gone after an error, so
a call that follows one that has failed returns `Ready(Ok)`.
-/

namespace TokioCronet.Bidirectional

open Pool

variable {cfg : Settings} {s s' : Flow} {t u : Thread} {ts : List Thread} {rest : Multiset Thread}

/-! ## The end of the stream -/

/-- `enqueue_data` accepts the end of the stream. -/
def Event.ends : Event → Bool
  | .accepted _ eos => eos
  | _ => false

/-- A poll fails, or a poll that waits for a flush returns. -/
def Event.returned : Event → Option PollResult
  | .polled .write (.ready _) => none
  | .polled _ (.ready count) => some (.ready count)
  | .polled _ (.failed e) => some (.failed e)
  | _ => none

/-- The end of the stream was accepted. -/
def EndAccepted (tr : List Event) : Prop := ∃ e ∈ tr, e.ends = true

/-- What the polls have returned since the end of the stream was accepted. -/
def returned (tr : List Event) : List PollResult :=
  (tr.dropWhile fun e => !e.ends).filterMap Event.returned

/-- The first poll that has returned since then has failed. -/
def FirstFailed (tr : List Event) : Prop := ∃ e l, returned tr = .failed e :: l

/-- The end of the stream was handed to the native stream and everything that was handed to
it has been completed. -/
structure EndPerformed (tr : List Event) : Prop where
  /-- The end was handed over. -/
  written : ∃ write ∈ written tr, write.endOfStream = true
  /-- Everything that was handed over was completed. -/
  completed : ∀ pointer, writesAt pointer (Bidirectional.written tr) ≤ completionsAt pointer tr

theorem EndAccepted.append {tr : List Event} (h : EndAccepted tr) (l : List Event) :
    EndAccepted (tr ++ l) := by
  obtain ⟨e, he, hends⟩ := h
  exact ⟨e, List.mem_append_left l he, hends⟩

theorem endAccepted_iff {tr : List Event} :
    EndAccepted tr ↔ ∃ write ∈ accepted tr, write.endOfStream = true := by
  constructor
  · rintro ⟨e, he, hends⟩
    cases e with
    | accepted data eos => exact ⟨⟨data, eos⟩, List.mem_filterMap.mpr ⟨_, he, rfl⟩, hends⟩
    | _ => cases hends
  · rintro ⟨write, hw, hends⟩
    obtain ⟨e, he, heq⟩ := List.mem_filterMap.mp hw
    cases e with
    | accepted data eos =>
      cases heq
      exact ⟨_, he, hends⟩
    | _ => cases heq

/-- Once the end is accepted, what the polls return is added to what they have returned. -/
theorem returned_append {tr : List Event} (h : EndAccepted tr) (l : List Event) :
    returned (tr ++ l) = returned tr ++ l.filterMap Event.returned := by
  obtain ⟨e, he, hends⟩ := h
  have hne : tr.dropWhile (fun e => !e.ends) ≠ [] := by
    intro hnil
    have hall := List.dropWhile_eq_nil_iff.mp hnil e he
    rw [hends] at hall
    cases hall
  rw [returned, List.dropWhile_append, if_neg (by simpa using hne), List.filterMap_append]
  rfl

theorem dropWhile_ends {tr : List Event} (h : ¬ EndAccepted tr) :
    tr.dropWhile (fun e => !e.ends) = [] := by
  refine List.dropWhile_eq_nil_iff.mpr ?_
  intro e he
  rw [Bool.not_eq_true']
  exact Bool.eq_false_iff.mpr fun hends => h ⟨e, he, hends⟩

theorem returned_none {tr : List Event} (h : ¬ EndAccepted tr) : returned tr = [] := by
  rw [returned, dropWhile_ends h]
  rfl

/-- When the end is accepted no poll has returned since. -/
theorem returned_end {tr : List Event} {data : Buffer} (h : ¬ EndAccepted tr) :
    returned (tr ++ [.accepted data true]) = [] := by
  rw [returned, List.dropWhile_append, dropWhile_ends h]
  rfl

theorem FirstFailed.append {tr : List Event} (h : FirstFailed tr) (l : List Event) :
    FirstFailed (tr ++ l) := by
  obtain ⟨e, r, heq⟩ := h
  have hend : EndAccepted tr := by
    by_contra hnot
    rw [returned_none hnot] at heq
    cases heq
  refine ⟨e, r ++ l.filterMap Event.returned, ?_⟩
  rw [returned_append hend, heq, List.cons_append]

/-- A poll that fails is the first to return. -/
theorem firstFailed_of {tr : List Event} {op : PollOp} {e : Error} (h : EndAccepted tr)
    (hnone : returned tr = []) : FirstFailed (tr ++ [.polled op (.failed e)]) := by
  refine ⟨e, [], ?_⟩
  rw [returned_append h, hnone]
  cases op <;> rfl

/-- Events that are no results of polls. -/
theorem firstFailed_same {tr l : List Event} (h : EndAccepted tr)
    (hl : l.filterMap Event.returned = []) : returned (tr ++ l) = returned tr := by
  rw [returned_append h, hl, List.append_nil]

theorem returned_flows {tr : List Event} : returned (tr.filter Event.flows) = returned tr := by
  have hkeep : ∀ tr : List Event, (tr.filter Event.flows).filterMap Event.returned =
      tr.filterMap Event.returned := by
    intro tr
    rw [List.filterMap_filter]
    congr 1
    funext e
    cases e with
    | polled op result => cases op <;> cases result <;> rfl
    | callbackBegun c => cases c <;> rfl
    | _ => rfl
  induction tr with
  | nil => rfl
  | cons e tr ih =>
    by_cases he : e.flows = true
    · rw [List.filter_cons_of_pos he, returned, returned]
      by_cases hends : e.ends = true
      · rw [List.dropWhile_cons_of_neg (by simp [hends]),
          List.dropWhile_cons_of_neg (by simp [hends]),
          ← hkeep (e :: tr), List.filter_cons_of_pos he]
      · rw [List.dropWhile_cons_of_pos (by simp [hends]),
          List.dropWhile_cons_of_pos (by simp [hends])]
        exact ih
    · -- what the flushes do not see does not end the stream
      have hends : e.ends = false := by
        cases e with
        | accepted => exact absurd rfl he
        | _ => rfl
      rw [List.filter_cons_of_neg he, ih, returned, returned,
        List.dropWhile_cons_of_pos (by simp [hends])]

/-! ## The flush behind the end -/

/-- Where the adapter is with its shutdown: `first` is the flush behind the end of the
stream, and `n` writes are before it. -/
def Shutting (n : Nat) (first : Waiter) (s : Flow) (threads : Multiset Thread) : Prop :=
  (∃ t ∈ threads, t.starting = true) ∨ FirstFailed s.trace ∨
    (returned s.trace = [] ∧ ∃ w, s.receiver = some w ∧ first ≤ w) ∨ Completed s.trace n

/-- The flush behind the end of the stream. -/
structure Awaited (n : Nat) (first : Waiter) (s : Flow) (threads : Multiset Thread) : Prop where
  /-- What the flush says of the writes before it. -/
  covering : Covering (fun tr => Completed tr n) n first s threads
  /-- New flushes get later numbers. -/
  next : first ≤ s.next
  /-- The threads bring this flush or a later one. -/
  brought : ∀ t ∈ threads, ∀ w, t.brings = some w → first ≤ w
  /-- `poll_shutdown` waits for it. -/
  shutting : Shutting n first s threads

/-- The invariants of a shutdown. -/
structure EndInv (s : Flow) (threads : Multiset Thread) : Prop where
  /-- The flush is begun behind the end of the stream. -/
  started : s.started = true → EndAccepted s.trace
  /-- Whoever begins it has enqueued the end, and nothing was returned. -/
  starting : ∀ t ∈ threads, t.starting = true → EndAccepted s.trace ∧ returned s.trace = []
  /-- `poll_shutdown` waits behind the end, on a stream that has not failed. -/
  receives : ∀ t ∈ threads, t.receives = some .shutdown →
    EndAccepted s.trace ∧ ¬ FirstFailed s.trace
  /-- The adapter is closed once everything was completed. -/
  closed : s.closed = true → EndAccepted s.trace ∧ Completed s.trace (accepted s.trace).length
  /-- Behind the end stands one flush. -/
  awaited : EndAccepted s.trace →
    ∃ first, Awaited (accepted s.trace).length first s threads

theorem lasting_completed {n : Nat} : Lasting (fun tr => Completed tr n) n :=
  ⟨fun h => h.completed, fun l h => h.append l⟩

theorem starting_adapts (h : t.starting = true) : t.adapts = 1 := by
  unfold Thread.starting at h
  split at h <;> first | rfl | cases h

theorem not_firstFailed {tr : List Event} (h : returned tr = []) : ¬ FirstFailed tr := by
  rintro ⟨e, l, heq⟩
  rw [h] at heq
  cases heq

/-- A trace only grows, and only the adapter returns from a poll. -/
theorem trace_step (hs : FlowStep cfg s t ts s') : ∃ l, s'.trace = s.trace ++ l ∧
    (t.adapts = 0 → l.filterMap Event.returned = []) := by
  induction hs with
  | quiet | popData | popFlush | push | register | completes | opens | waits | begins | starts
  | enqueues | stores => exact ⟨[], (List.append_nil _).symm, fun _ => rfl⟩
  | write | flush | answers | refuses | calls | accepts => exact ⟨_, rfl, fun _ => rfl⟩
  | unblocks | drain =>
    refine ⟨_, rfl, fun _ => ?_⟩
    rw [List.filterMap_map]
    exact List.filterMap_eq_nil_iff.mpr fun _ _ => rfl
  | receives ht | ends ht | polls ht | fails ht =>
    subst ht
    exact ⟨_, rfl, nofun⟩

/-- Nothing is accepted after the end of the stream. -/
theorem accepted_step (hs : FlowStep cfg s t ts s') : accepted s'.trace = accepted s.trace ∨
    ∃ op waker, t = .stream (.enqueue op waker) ∧ s.state.localClosed = false ∧
      ts = [.stream (.notify op)] ∧ s'.next = s.next ∧
      s'.trace = s.trace ++ [.accepted op.data op.endOfStream] := by
  induction hs with
  | accepts ht hclosed hts => exact .inr ⟨_, _, ht, hclosed, hts, rfl, rfl⟩
  | quiet | popData | popFlush | push | register | completes | opens | waits | begins | starts
  | enqueues | stores => exact .inl rfl
  | write | flush | answers | refuses | calls | receives | ends | polls | fails =>
    exact .inl ((accepted_append _ _).trans (List.append_nil _))
  | unblocks | drain =>
    left
    rw [accepted_append, accepted_answers, List.append_nil]

/-- The end of the stream stays accepted, and what the adapter does not return stays. -/
theorem ended_aside (hs : FlowStep cfg s t ts s') (ht : t.adapts = 0) (h : EndAccepted s.trace) :
    EndAccepted s'.trace ∧ returned s'.trace = returned s.trace := by
  obtain ⟨l, htr, hl⟩ := trace_step hs
  rw [htr]
  exact ⟨h.append l, firstFailed_same h (hl ht)⟩

/-- The adapter itself moves. -/
theorem adapts_rest (hone : total Thread.adapts (t ::ₘ rest) ≤ 1) (hu : u ∈ rest)
    (hadapts : u.adapts = 1) : t.adapts = 0 := by
  have hle := add_le_total (w := Thread.adapts) (t := t) hu
  omega

theorem EndInv.started_step (h : EndInv s (t ::ₘ rest)) (hcfg : cfg.endOfStream = false)
    (hs : FlowStep cfg s t ts s') (hstarted : s'.started = true) : EndAccepted s'.trace := by
  obtain ⟨l, htr, -⟩ := trace_step hs
  rw [htr]
  refine EndAccepted.append ?_ l
  induction hs with
  | starts ht => exact (h.starting t (Multiset.mem_cons_self t rest) (ht ▸ rfl)).1
  | opens =>
    rw [show cfg.endOfStream = true from hstarted] at hcfg
    cases hcfg
  | _ => exact h.started hstarted

theorem EndInv.starting_step (h : EndInv s (t ::ₘ rest))
    (hone : total Thread.adapts (t ::ₘ rest) ≤ 1)
    (hclosed : EndAccepted s.trace → s.state.localClosed = true) (hs : FlowStep cfg s t ts s') :
    ∀ u ∈ (ts : Multiset Thread) + rest, u.starting = true →
      EndAccepted s'.trace ∧ returned s'.trace = [] := by
  have hmem : t ∈ t ::ₘ rest := Multiset.mem_cons_self t rest
  intro u hu hstarting
  rcases Multiset.mem_add.mp hu with hu | hu
  · rw [Multiset.mem_coe] at hu
    induction hs with
    | quiet hp =>
      rw [hp.starting u hu] at hstarting
      cases hstarting
    | @accepts op waker ht hopen hts =>
      subst ht hts
      rw [List.mem_singleton] at hu
      subst hu
      cases op with
      | write data => cases hstarting
      | shutdown data =>
        have hnot : ¬ EndAccepted s.trace := by
          intro hend
          rw [hclosed hend] at hopen
          cases hopen
        exact ⟨⟨_, List.mem_append_right _ (List.mem_singleton_self _), rfl⟩, returned_end hnot⟩
    | starts ht hts => exact h.starting t hmem (ht ▸ rfl)
    | @enqueues op waiter ht hts =>
      subst ht hts
      rw [List.mem_singleton] at hu
      subst hu
      exact h.starting _ hmem (by cases op <;> first | rfl | cases hstarting)
    | opens _ hts | calls _ hts =>
      subst hts
      simp only [List.mem_cons, List.not_mem_nil, or_false] at hu
      rcases hu with rfl | rfl | rfl <;> cases hstarting
    | popData _ _ hts | register _ _ hts | answers _ _ hts | unblocks _ _ hts | begins _ _ hts
    | ends _ _ hts | polls _ _ hts | popFlush _ _ _ hts | receives _ _ _ hts | push _ hts
    | write _ hts | flush _ hts | refuses _ hts | completes _ hts | drain _ hts | waits _ hts
    | stores _ hts | fails _ hts =>
      subst hts
      rw [List.mem_singleton] at hu
      subst hu
      cases hstarting
  · obtain ⟨hend, hnone⟩ := h.starting u (Multiset.mem_cons_of_mem hu) hstarting
    obtain ⟨hend', hsame⟩ := ended_aside hs (adapts_rest hone hu (starting_adapts hstarting)) hend
    exact ⟨hend', hsame.trans hnone⟩

theorem EndInv.receives_step (h : EndInv s (t ::ₘ rest))
    (hone : total Thread.adapts (t ::ₘ rest) ≤ 1)
    (hcalled : t = .stream .idle → ts = [.stream (.receive .shutdown)] → ¬ FirstFailed s.trace)
    (hs : FlowStep cfg s t ts s') :
    ∀ u ∈ (ts : Multiset Thread) + rest, u.receives = some .shutdown →
      EndAccepted s'.trace ∧ ¬ FirstFailed s'.trace := by
  have hmem : t ∈ t ::ₘ rest := Multiset.mem_cons_self t rest
  intro u hu hreceives
  rcases Multiset.mem_add.mp hu with hu | hu
  · rw [Multiset.mem_coe] at hu
    induction hs with
    | quiet hp =>
      rw [hp.receives u hu] at hreceives
      cases hreceives
    | @waits op ht hts hop =>
      subst hts
      rw [List.mem_singleton] at hu
      subst hu
      cases hreceives
      rcases hop with ⟨hop, -⟩ | ⟨-, hstarted⟩
      · cases hop
      · exact ⟨h.started hstarted, hcalled ht rfl⟩
    | @stores op waiter ht hts =>
      subst hts
      rw [List.mem_singleton] at hu
      subst hu
      cases hreceives
      obtain ⟨hend, hnone⟩ := h.starting t hmem (ht ▸ rfl)
      exact ⟨hend, not_firstFailed hnone⟩
    | opens _ hts | calls _ hts =>
      subst hts
      simp only [List.mem_cons, List.not_mem_nil, or_false] at hu
      rcases hu with rfl | rfl | rfl <;> cases hreceives
    | popData _ _ hts | register _ _ hts | answers _ _ hts | unblocks _ _ hts | begins _ _ hts
    | ends _ _ hts | polls _ _ hts | popFlush _ _ _ hts | receives _ _ _ hts | push _ hts
    | write _ hts | flush _ hts | refuses _ hts | completes _ hts | drain _ hts | accepts _ _ hts
    | starts _ hts | enqueues _ hts | fails _ hts =>
      subst hts
      rw [List.mem_singleton] at hu
      subst hu
      cases hreceives
  · obtain ⟨hend, hnot⟩ := h.receives u (Multiset.mem_cons_of_mem hu) hreceives
    obtain ⟨hend', hsame⟩ := ended_aside hs (adapts_rest hone hu (receives_adapts hreceives)) hend
    refine ⟨hend', ?_⟩
    rw [FirstFailed, hsame]
    exact hnot

/-- `poll_shutdown` looks at the receiver: if it has its answer, or there is none, everything
that was accepted has been completed. -/
theorem EndInv.completed (h : EndInv s (t ::ₘ rest)) (hone : total Thread.adapts (t ::ₘ rest) ≤ 1)
    (ht : t.receives = some .shutdown)
    (hr : s.receiver = none ∨ ∃ w, s.receiver = some w ∧ .answered w (.ok ()) ∈ s.trace) :
    EndAccepted s.trace ∧ Completed s.trace (accepted s.trace).length := by
  obtain ⟨hend, hnot⟩ := h.receives t (Multiset.mem_cons_self t rest) ht
  obtain ⟨first, hawaited⟩ := h.awaited hend
  refine ⟨hend, ?_⟩
  rcases hawaited.shutting with ⟨u, hu, hstarting⟩ | hfailed | ⟨-, w, hw, hfirst⟩ | hdone
  · -- the adapter is not on its way to the queue
    rcases Multiset.mem_cons.mp hu with rfl | hu
    · unfold Thread.receives at ht
      split at ht <;> first | cases hstarting | cases ht
    · have hzero := adapts_alone hone (receives_adapts ht) hu
      rw [starting_adapts hstarting] at hzero
      cases hzero
  · exact absurd hfailed hnot
  · rcases hr with hr | ⟨w', hw', hanswered⟩
    · rw [hw] at hr
      cases hr
    · rw [hw, Option.some.injEq] at hw'
      exact hawaited.covering.answered w' hanswered (hw' ▸ hfirst)
  · exact hdone

theorem EndInv.closed_step (h : EndInv s (t ::ₘ rest)) (hone : total Thread.adapts (t ::ₘ rest) ≤ 1)
    (hclosed : EndAccepted s.trace → s.state.localClosed = true) (hcfg : cfg.endOfStream = false)
    (hs : FlowStep cfg s t ts s') (hc : s'.closed = true) :
    EndAccepted s'.trace ∧ Completed s'.trace (accepted s'.trace).length := by
  have hold : EndAccepted s.trace ∧ Completed s.trace (accepted s.trace).length := by
    induction hs with
    | opens =>
      rw [show cfg.endOfStream = true from hc] at hcfg
      cases hcfg
    | @receives op waiter ht hr hans hts =>
      rcases Bool.or_eq_true_iff.mp hc with hc | hop
      · exact h.closed hc
      · subst ht
        rw [beq_iff_eq] at hop
        subst hop
        exact h.completed hone rfl (.inr ⟨waiter, hr, hans⟩)
    | @ends op ht hr hts =>
      rcases Bool.or_eq_true_iff.mp hc with hc | hop
      · exact h.closed hc
      · subst ht
        rw [beq_iff_eq] at hop
        subst hop
        exact h.completed hone rfl (.inl hr)
    | _ => exact h.closed hc
  obtain ⟨hend, hcompleted⟩ := hold
  obtain ⟨l, htr, -⟩ := trace_step hs
  have hsame : accepted s'.trace = accepted s.trace := by
    rcases accepted_step hs with hsame | ⟨_, _, _, hopen, _⟩
    · exact hsame
    · rw [hclosed hend] at hopen
      cases hopen
  rw [hsame, htr]
  exact ⟨hend.append l, hcompleted.append l⟩

theorem shutting_step {first : Waiter} (h : EndInv s (t ::ₘ rest))
    (hawaited : Awaited (accepted s.trace).length first s (t ::ₘ rest))
    (hend : EndAccepted s.trace) (hclosed : s.state.localClosed = true)
    (hs : FlowStep cfg s t ts s') :
    Shutting (accepted s.trace).length first s' (ts + rest) := by
  have hmem : t ∈ t ::ₘ rest := Multiset.mem_cons_self t rest
  obtain ⟨l, htr, -⟩ := trace_step hs
  rcases hawaited.shutting with ⟨u, hu, hstarting⟩ | hfailed | ⟨hnone, w, hw, hfirst⟩ | hdone
  · rcases Multiset.mem_cons.mp hu with rfl | hu
    · -- the adapter is on its way to the queue, and from there to the receiver
      obtain ⟨-, hnone⟩ := h.starting u hmem hstarting
      induction hs with
      | quiet _ hnot | polls _ hnot =>
        rw [hstarting] at hnot
        cases hnot
      | starts ht hts =>
        subst ht hts
        exact .inl ⟨_, Multiset.mem_add.mpr
          (.inl (Multiset.mem_coe.mpr (List.mem_singleton_self _))), rfl⟩
      | @enqueues op waiter ht hts =>
        subst ht hts
        refine .inl ⟨_, Multiset.mem_add.mpr
          (.inl (Multiset.mem_coe.mpr (List.mem_singleton_self _))), ?_⟩
        cases op <;> first | rfl | cases hstarting
      | @stores op waiter ht hts =>
        subst ht hts
        exact .inr (.inr (.inl ⟨hnone, waiter, rfl, hawaited.brought _ hmem waiter rfl⟩))
      | fails ht hts =>
        exact .inr (.inl (firstFailed_of hend hnone))
      | popData ht | register ht | answers ht | unblocks ht | begins ht | ends ht | popFlush ht
      | receives ht | push ht | write ht | flush ht | refuses ht | completes ht | drain ht
      | accepts ht | waits ht | opens ht | calls ht =>
        subst ht
        cases hstarting
    · exact .inl ⟨u, Multiset.mem_add.mpr (.inr hu), hstarting⟩
  · rw [Shutting, htr]
    exact .inr (.inl (hfailed.append l))
  · induction hs with
    | quiet | popData | popFlush | push | register | opens | waits | begins | starts | enqueues
    | completes => exact .inr (.inr (.inl ⟨hnone, w, hw, hfirst⟩))
    | write | flush | answers | refuses | calls =>
      exact .inr (.inr (.inl ⟨(firstFailed_same hend rfl).trans hnone, w, hw, hfirst⟩))
    | unblocks | drain =>
      refine .inr (.inr (.inl ⟨(firstFailed_same hend ?_).trans hnone, w, hw, hfirst⟩))
      rw [List.filterMap_map]
      exact List.filterMap_eq_nil_iff.mpr fun _ _ => rfl
    | @stores op waiter ht hts =>
      subst ht hts
      exact .inr (.inr (.inl ⟨hnone, waiter, rfl, hawaited.brought _ hmem waiter rfl⟩))
    | @receives op waiter ht hr hans hts =>
      -- the flush behind the end has its answer
      rw [hw, Option.some.injEq] at hr
      have hdone := hawaited.covering.answered waiter hans (hr ▸ hfirst)
      exact .inr (.inr (.inr (hdone.append _)))
    | fails => exact .inr (.inl (firstFailed_of hend hnone))
    | ends ht hr =>
      rw [hw] at hr
      cases hr
    | @polls p op count ht hnot hts hop =>
      rcases hop with rfl | ⟨rfl, hc⟩
      · exact .inr (.inr (.inl ⟨(firstFailed_same hend rfl).trans hnone, w, hw, hfirst⟩))
      · exact .inr (.inr (.inr ((h.closed hc).2.append _)))
    | accepts ht hopen =>
      rw [hclosed] at hopen
      cases hopen
  · rw [Shutting, htr]
    exact .inr (.inr (.inr (hdone.append l)))

/-- What the adapter brings to the queue it has just numbered, or brought before. -/
theorem brought_step {first : Waiter} (hnext : first ≤ s.next)
    (h : ∀ u ∈ t ::ₘ rest, ∀ w, u.brings = some w → first ≤ w) (hs : FlowStep cfg s t ts s') :
    first ≤ s'.next ∧ ∀ u ∈ (ts : Multiset Thread) + rest, ∀ w, u.brings = some w → first ≤ w := by
  have hmem : t ∈ t ::ₘ rest := Multiset.mem_cons_self t rest
  have hkeep : (∀ u ∈ ts, ∀ w, u.brings = some w → first ≤ w) →
      ∀ u ∈ (ts : Multiset Thread) + rest, ∀ w, u.brings = some w → first ≤ w :=
    fun hown => forall_step h (fun _ => hown) fun _ _ hu => hu
  induction hs with
  | quiet hp =>
    refine ⟨hnext, hkeep ?_⟩
    intro u hu w hw
    rw [hp.brings u hu] at hw
    cases hw
  | begins _ _ hts | starts _ hts =>
    subst hts
    refine ⟨hnext.trans (Nat.le_succ _), hkeep ?_⟩
    intro u hu w hw
    rw [List.mem_singleton] at hu
    subst hu
    cases hw
    exact hnext
  | @enqueues op waiter ht hts =>
    subst ht hts
    refine ⟨hnext, hkeep ?_⟩
    intro u hu w hw
    rw [List.mem_singleton] at hu
    subst hu
    cases hw
    exact h _ hmem waiter rfl
  | opens _ hts | calls _ hts =>
    subst hts
    refine ⟨hnext, hkeep ?_⟩
    intro u hu w hw
    simp only [List.mem_cons, List.not_mem_nil, or_false] at hu
    rcases hu with rfl | rfl | rfl <;> cases hw
  | popData _ _ hts | register _ _ hts | answers _ _ hts | unblocks _ _ hts | accepts _ _ hts
  | ends _ _ hts | polls _ _ hts | popFlush _ _ _ hts | receives _ _ _ hts | push _ hts
  | write _ hts | flush _ hts | refuses _ hts | completes _ hts | drain _ hts | waits _ hts
  | stores _ hts | fails _ hts =>
    subst hts
    refine ⟨hnext, hkeep ?_⟩
    intro u hu w hw
    rw [List.mem_singleton] at hu
    subst hu
    cases hw

/-- The end of the stream has just been accepted: the flush behind it is still to come. -/
theorem awaited_init {op : Producing} {waker : Waker}
    (hfresh : FreshInv s' (([.stream (.notify op)] : List Thread) + rest))
    (hone : total Thread.adapts (.stream (.enqueue op waker) ::ₘ rest) ≤ 1)
    (hop : op.endOfStream = true) :
    Awaited (accepted s'.trace).length s'.next s'
      (([.stream (.notify op)] : List Thread) + rest) := by
  refine ⟨hfresh.covering, le_rfl, ?_, .inl ⟨.stream (.notify op), ?_, ?_⟩⟩
  · intro u hu w hw
    rcases Multiset.mem_add.mp hu with hu | hu
    · rw [Multiset.mem_coe, List.mem_singleton] at hu
      subst hu
      cases hw
    · have hzero := adapts_alone hone rfl hu
      rw [brings_adapts hw] at hzero
      cases hzero
  · exact Multiset.mem_add.mpr (.inl (Multiset.mem_coe.mpr (List.mem_singleton_self _)))
  · cases op with
    | write => cases hop
    | shutdown => rfl

/-- What `endInv_step` needs to know of the step. -/
structure Ends (s : Flow) (t : Thread) (ts : List Thread) : Prop where
  /-- `poll_shutdown` is not called again after the first poll to return has failed. -/
  called : t = .stream .idle → ts = [.stream (.receive .shutdown)] → ¬ FirstFailed s.trace
  /-- Who ends the write side with success leaves no flush, or everything was completed. -/
  finishes : ∀ who, t = .finish (.drain who (.ok ())) →
    s.state.flushWaiters ++ s.state.queuedFlushes = [] ∨
      Completed s.trace (accepted s.trace).length
  /-- What the write loop takes up is the rest of what was accepted. -/
  sync : ∀ epoch, t = .writer (.pop epoch) → s.state.terminal = none →
    accepted s.trace = written s.trace ++ s.state.queuedData
  /-- Nothing is accepted behind the end. -/
  closed : EndAccepted s.trace → s.state.localClosed = true

theorem EndInv.awaited_step (h : EndInv s (t ::ₘ rest))
    (hone : total Thread.adapts (t ::ₘ rest) ≤ 1)
    (hfresh : FreshInv s (t ::ₘ rest)) (hledger : LedgerInv s (t ::ₘ rest)) (he : Ends s t ts)
    (hs : FlowStep cfg s t ts s') (hend' : EndAccepted s'.trace) :
    ∃ first, Awaited (accepted s'.trace).length first s' (ts + rest) := by
  by_cases hend : EndAccepted s.trace
  · obtain ⟨first, hawaited⟩ := h.awaited hend
    have hclosed := he.closed hend
    have hsame : accepted s'.trace = accepted s.trace := by
      rcases accepted_step hs with hsame | ⟨_, _, _, hopen, _⟩
      · exact hsame
      · rw [hclosed] at hopen
        cases hopen
    obtain ⟨hnext, hbrought⟩ := brought_step hawaited.next hawaited.brought hs
    refine ⟨first, ?_⟩
    rw [hsame]
    exact ⟨covering_step hawaited.covering lasting_completed hledger he.sync he.finishes hs, hnext,
      hbrought, shutting_step h hawaited hend hclosed hs⟩
  · rcases accepted_step hs with hsame | ⟨op, waker, ht, hopen, hts, hnext, htr⟩
    · rw [endAccepted_iff, hsame, ← endAccepted_iff] at hend'
      exact absurd hend' hend
    · have hfresh' := freshInv_step hfresh hs
      subst ht hts
      have hop : op.endOfStream = true := by
        obtain ⟨e, hmem, hends⟩ := htr ▸ hend'
        rcases List.mem_append.mp hmem with hmem | hmem
        · exact absurd ⟨e, hmem, hends⟩ hend
        · rw [List.mem_singleton] at hmem
          subst hmem
          exact hends
      exact ⟨s'.next, awaited_init hfresh' hone hop⟩

/-- **Every step keeps the invariants of a shutdown.** -/
theorem endInv_step (h : EndInv s (t ::ₘ rest)) (hcfg : cfg.endOfStream = false)
    (hone : total Thread.adapts (t ::ₘ rest) ≤ 1) (hfresh : FreshInv s (t ::ₘ rest))
    (hledger : LedgerInv s (t ::ₘ rest)) (he : Ends s t ts) (hs : FlowStep cfg s t ts s') :
    EndInv s' (ts + rest) where
  started := h.started_step hcfg hs
  starting := h.starting_step hone he.closed hs
  receives := h.receives_step hone he.called hs
  closed := h.closed_step hone he.closed hcfg hs
  awaited := h.awaited_step hone hfresh hledger he hs

theorem endInv_init : EndInv (Shared.flow {}) start.config.threads where
  started := nofun
  starting := by
    intro t ht hstarting
    rw [Listed.config, start, Multiset.mem_coe] at ht
    simp only [List.mem_cons, List.not_mem_nil, or_false] at ht
    rcases ht with rfl | rfl | rfl <;> cases hstarting
  receives := by
    intro t ht hreceives
    rw [Listed.config, start, Multiset.mem_coe] at ht
    simp only [List.mem_cons, List.not_mem_nil, or_false] at ht
    rcases ht with rfl | rfl | rfl <;> cases hreceives
  closed := nofun
  awaited := by
    rintro ⟨e, he, -⟩
    cases he

/-! ## Runs -/

variable {c : Config Shared Thread}

/-- `poll_shutdown` is not called again once it has accepted the end of the stream and the
first poll that has returned since then has failed; and `finish` answers flushes with `Ok`
only where all that was accepted has been completed. -/
def ShutsDownOnce : Policy Shared Thread Choice := fun c t ch =>
  (∀ pointer waker, t = .stream .idle → ch = .pollShutdown pointer waker →
    ¬ FirstFailed c.shared.trace) ∧
  ∀ who, t = .finish (.drain who (.ok ())) →
    c.shared.write.state.flushWaiters ++ c.shared.write.state.queuedFlushes = [] ∨
      Completed c.shared.trace (accepted c.shared.trace).length

/-- Only `poll_shutdown` makes the adapter look for its answer. -/
theorem calls_shutdown {s s' : Shared} {ch : Choice}
    (h : step cfg s (.stream .idle) ch = some (s', [.stream (.receive .shutdown)])) :
    ∃ pointer waker, ch = .pollShutdown pointer waker := by
  rw [step] at h
  generalize hp : Stream.idle = p at h
  revert h
  fun_cases streamStep cfg s p ch <;> intro h <;> cases h
  all_goals first
    | exact ⟨_, _, rfl⟩
    | cases hp

theorem firstFailed_flows {tr : List Event} :
    FirstFailed (tr.filter Event.flows) ↔ FirstFailed tr := by
  rw [FirstFailed, FirstFailed, returned_flows]

theorem endAccepted_flows {tr : List Event} :
    EndAccepted (tr.filter Event.flows) ↔ EndAccepted tr := by
  rw [endAccepted_iff, endAccepted_iff, accepted_flows]

theorem endPerformed_flows {tr : List Event} (h : EndPerformed (tr.filter Event.flows)) :
    EndPerformed tr := by
  refine ⟨?_, fun pointer => ?_⟩
  · rw [← written_flows]
    exact h.written
  · rw [← written_flows, ← completionsAt_flows]
    exact h.completed pointer

/-- Everything that was accepted has been completed, and the end of the stream with it. -/
theorem endPerformed_of {tr : List Event} (hend : EndAccepted tr)
    (hcompleted : Completed tr (accepted tr).length) (hordered : written tr <+: accepted tr) :
    EndPerformed tr := by
  have hall : written tr = accepted tr := hordered.eq_of_length_le hcompleted.written
  refine ⟨?_, fun pointer => ?_⟩
  · rw [hall]
    exact endAccepted_iff.mp hend
  · have hle := hcompleted.completed pointer
    rw [← hall, List.take_length] at hle
    exact hle

theorem ShutsDownOnce.ends {s s' : Shared} {ch : Choice}
    (hc : Reachable (step cfg) (fun _ _ _ => True) start.config ⟨s, t ::ₘ rest⟩)
    (ha : ShutsDownOnce ⟨s, t ::ₘ rest⟩ t ch) (hn : step cfg s t ch = some (s', ts)) :
    Ends s.flow t ts where
  called := by
    rintro rfl rfl
    obtain ⟨pointer, waker, rfl⟩ := calls_shutdown hn
    exact fun hfailed => ha.1 pointer waker rfl rfl (firstFailed_flows.mp hfailed)
  finishes := by
    intro who ht
    rcases ha.2 who ht with hnil | hdone
    · exact .inl hnil
    · right
      rw [Shared.flow, accepted_flows]
      exact completed_flows.mpr hdone
  sync := by
    rintro epoch rfl hterm
    exact popped_sync hc (Multiset.mem_cons_self _ rest) hterm
  closed := by
    intro hend
    obtain ⟨write, hw, hends⟩ := endAccepted_iff.mp (endAccepted_flows.mp hend)
    exact (orderInv_reachable hc).closed write hw hends

/-- What a run says of its shutdown. -/
structure ShutdownInv (c : Config Shared Thread) : Prop where
  /-- The shutdown stands as it should. -/
  ending : EndInv c.shared.flow c.threads
  /-- What `poll_shutdown` concludes is so. -/
  told : Trace.Justified (Told EndPerformed [] .shutdown) c.shared.flow.trace

theorem shutdownInv_step {s s' : Shared} {ch : Choice} (hcfg : cfg.endOfStream = false)
    (hc : Reachable (step cfg) (fun _ _ _ => True) start.config ⟨s, t ::ₘ rest⟩)
    (h : ShutdownInv ⟨s, t ::ₘ rest⟩) (ha : ShutsDownOnce ⟨s, t ::ₘ rest⟩ t ch)
    (hn : step cfg s t ch = some (s', ts)) : ShutdownInv ⟨s', ts + rest⟩ := by
  have hs := step_flow hn
  have hone := adapts_reachable hc
  refine ⟨endInv_step h.ending hcfg hone (freshInv_reachable hc) (ledgerInv_reachable hc)
    (ha.ends hc hn) hs, told_step h.told hs ?_⟩
  intro hr
  have hordered : written s.flow.trace <+: accepted s.flow.trace := by
    rw [Shared.flow, accepted_flows, written_flows]
    exact (orderInv_reachable hc).ordered
  have hdone : EndAccepted s.flow.trace ∧
      Completed s.flow.trace (accepted s.flow.trace).length := by
    cases hr with
    | answered ht hw hans => exact h.ending.completed hone ht (.inr ⟨_, hw, hans⟩)
    | nothing ht hnone => exact h.ending.completed hone ht (.inl hnone)
    | closed hclosed => exact h.ending.closed hclosed
  exact endPerformed_of hdone.1 hdone.2 hordered

theorem shutdownInv_reachable (hcfg : cfg.endOfStream = false)
    (h : Reachable (step cfg) ShutsDownOnce start.config c) : ShutdownInv c := by
  refine h.invariant (P := ShutdownInv) ⟨endInv_init, told_init⟩ ?_
  rintro _ _ hr hi ⟨ha, hn⟩
  exact shutdownInv_step hcfg (hr.mono fun _ _ _ _ => trivial) hi ha hn

/-- **`poll_shutdown` returns `Ready(Ok)` only after the end of the stream was performed and
completed**, in every run of a stream that is not opened with `end_of_stream` in which it is
not called again after the first poll to return has failed, and `finish` answers no flush
with `Ok` too early. -/
theorem shutdown_performed (hcfg : cfg.endOfStream = false)
    (h : Reachable (step cfg) ShutsDownOnce start.config c) :
    ∀ l r, c.shared.trace = l ++ .polled .shutdown (.ready 0) :: r → EndPerformed l := by
  intro l r heq
  have heq' : c.shared.flow.trace =
      l.filter Event.flows ++ .polled .shutdown (.ready 0) :: r.filter Event.flows := by
    rw [Shared.flow, heq, List.filter_append, List.filter_cons_of_pos rfl]
  exact endPerformed_flows
    ((shutdownInv_reachable hcfg h).told _ _ _ heq' rfl (List.nil_prefix))

/-- `ShutsDownOnce` as a test. -/
def shutsDownOnce (c : Listed Shared Thread) (t : Thread) (ch : Choice) : Bool :=
  match t, ch with
  | .stream .idle, .pollShutdown _ _ =>
    match returned c.shared.trace with
    | .failed _ :: _ => false
    | _ => true
  | .finish (.drain _ (.ok ())), _ =>
    decide (c.shared.write.state.flushWaiters ++ c.shared.write.state.queuedFlushes = [])
  | _, _ => true

theorem shutsDownOnce_sound (c : Listed Shared Thread) (t : Thread) (ch : Choice)
    (h : shutsDownOnce c t ch = true) : ShutsDownOnce c.config t ch := by
  constructor
  · rintro pointer waker rfl rfl ⟨e, l, heq⟩
    have heq' : returned c.shared.trace = .failed e :: l := heq
    rw [shutsDownOnce, heq'] at h
    cases h
  · rintro who rfl
    exact .inl (of_decide_eq_true h)

/-- A shutdown whose flush is answered. -/
def endsWell : Schedule :=
  opens ++
  [(.stream .idle, .pollShutdown 9 3 :: go 5),
   (.writer .top, go 7 ++ [.result none] ++ go 11),
   (.outside .cronet, [.callback (.writeCompleted 9)]),
   (.callback (.entered (.writeCompleted 9)), go 3),
   (.stream .idle, .pollShutdown 9 3 :: go 1)]

theorem shutdown_performed_well :
    let c := Pool.play (step {}) shutsDownOnce start endsWell
    c.shared.trace = c.shared.trace.dropLast ++ [.polled .shutdown (.ready 0)] ∧
      EndPerformed c.shared.trace.dropLast := by
  have hreach : Reachable (step {}) ShutsDownOnce start.config
      (Pool.play (step {}) shutsDownOnce start endsWell).config :=
    play_reachable shutsDownOnce_sound endsWell Reachable.start
  refine ⟨by decide +kernel, ?_⟩
  exact shutdown_performed rfl hreach _ [] (by decide +kernel)

/-- The stream is cancelled before it has written anything, and `poll_shutdown` is called
again after it has said so. -/
def shutsDownTwice : Schedule :=
  opens ++
  [(.stream .idle, .pollShutdown 9 3 :: go 5)] ++
  cancels ++
  [(.stream .idle, .pollShutdown 9 3 :: go 1),
   (.stream .idle, .pollShutdown 9 3 :: go 1)]

/-- **A shutdown that has failed succeeds when it is polled again**, and the end of the stream
was never written. -/
theorem shutdown_unperformed :
    ∃ c, Reachable (step {}) (fun _ _ _ => True) start.config c ∧
      .polled .shutdown (.failed .canceled) ∈ c.shared.trace ∧
      ∃ l, c.shared.trace = l ++ [.polled .shutdown (.ready 0)] ∧ ¬ EndPerformed l := by
  let c := Pool.play (step {}) unchecked start shutsDownTwice
  refine ⟨c.config, play_reachable (fun _ _ _ _ => trivial) shutsDownTwice Reachable.start,
    by decide +kernel, c.shared.trace.dropLast, by decide +kernel, ?_⟩
  intro h
  obtain ⟨write, hw, -⟩ := h.written
  have hnil : written c.shared.trace.dropLast = [] := by decide +kernel
  rw [hnil] at hw
  cases hw

end TokioCronet.Bidirectional
