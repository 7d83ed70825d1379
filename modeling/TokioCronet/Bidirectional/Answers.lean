import TokioCronet.Bidirectional.Completions
import TokioCronet.Bidirectional.Ending
import TokioCronet.Bidirectional.Failures
import TokioCronet.Bidirectional.Reads

/-!
# What the answer of a flush says

Three parties answer a flush with `Ok`: the write loop, when it comes to it and nothing is in
flight; the last completion, when the write loop waits behind it; and `finish`, when the stream
has succeeded. The first two have called the native flush. `finish` answers what it finds, in the
queue too, and has called nothing; but a stream succeeds only when its end has been written, so
there is nothing before the flush that is still to be written.
-/

namespace TokioCronet.Bidirectional

open Pool

/-! ## Nothing is written behind a flush -/

section

variable {cfg : Settings} {s s' : Shared} {t u : Thread} {ch : Choice} {ts : List Thread}
  {rest : Multiset Thread} {allowed : Policy Shared Thread Choice} {c : Config Shared Thread}

/-- While the queue is blocked, the write loop is with no command. -/
def Blocked (s : Flow) (threads : Multiset Thread) : Prop :=
  s.state.flushBlocked = true → ∀ t ∈ threads, t.loads = false

/-- Only the write loop blocks the queue. -/
theorem blocks_step {s s' : Flow} (hs : FlowStep cfg s t ts s')
    (h : s'.state.flushBlocked = true) :
    s.state.flushBlocked = true ∨ ∃ w, t = .writer (.register w) := by
  induction hs with
  | register ht => exact .inr ⟨_, ht⟩
  | completes => exact .inl ((remove_kept _ _).2.2 ▸ h)
  | unblocks => cases h
  | _ => exact .inl h

theorem blocked_step {s s' : Flow} (h : Blocked s (t ::ₘ rest))
    (hloops : total Thread.loops (t ::ₘ rest) ≤ 1) (hm : Loads s t s' ts)
    (hs : FlowStep cfg s t ts s') : Blocked s' (ts + rest) := by
  intro hblocked
  by_cases hbefore : s.state.flushBlocked = true
  · exact hm.unloaded hbefore (h hbefore)
  · obtain ⟨w, rfl⟩ := (blocks_step hs hblocked).resolve_left hbefore
    obtain ⟨rfl, -⟩ := hm.register w rfl
    intro u hu
    rcases Multiset.mem_add.mp hu with hu | hu
    · obtain rfl := List.mem_singleton.mp (Multiset.mem_coe.mp hu)
      rfl
    · rw [Thread.loads, stage_alone hloops rfl hu]

theorem blocked_reachable (h : Reachable (step cfg) allowed start.config c) :
    Blocked c.shared.flow c.threads := by
  refine h.invariant (P := fun c => Blocked c.shared.flow c.threads)
    (fun hblocked => by cases hblocked) ?_
  rintro _ _ hr hi ⟨-, hn⟩
  exact blocked_step hi (orderInv_reachable hr).loops (step_loads hn) (step_flow hn)

/-- How a step changes what the native stream has been given. -/
inductive HandsOver (s : Side) (t : Thread) (ts : List Thread) (s' : Side) : Prop
  | still : s'.outstanding = s.outstanding → s'.written = s.written → HandsOver s t ts s'
  | write {data : Buffer} {eos : Bool} : t = .control (.call (.write data eos)) →
      s'.outstanding = s.outstanding ++ [data] →
      s'.written = s.written ++ [{ data := data, endOfStream := eos }] → HandsOver s t ts s'
  | fails {data : Buffer} {eos : Bool} {e : Error} : t = .control (.call (.write data eos)) →
      ts = [.control (.unlock (.write data eos) (some e))] → s'.outstanding = s.outstanding →
      s'.written = s.written ++ [{ data := data, endOfStream := eos }] → HandsOver s t ts s'
  | calls : t = .outside .cronet → s'.written = s.written → HandsOver s t ts s'

theorem SideStep.handsOver {s s' : Side} (hs : SideStep cfg s t ts s') : HandsOver s t ts s' := by
  induction hs with
  | wake => exact .still wake_outstanding wake_written
  | write ht => exact .write ht rfl rfl
  | writeFails ht hts => exact .fails ht hts rfl rfl
  | calls ht => exact .calls ht rfl
  | _ => exact .still rfl rfl

/-- **Nothing is written while a flush blocks the queue.** -/
theorem blocked_writes (h : Reachable (step cfg) allowed start.config c)
    (hc : c.threads = t ::ₘ rest) (hblocked : c.shared.write.state.flushBlocked = true)
    (hn : step cfg c.shared t ch = some (s', ts)) :
    written s'.trace = written c.shared.trace := by
  have hloads : t.loads = false :=
    blocked_reachable h hblocked t (hc ▸ Multiset.mem_cons_self t rest)
  cases (step_side hn).handsOver with
  | still _ hw | calls _ hw => exact hw
  | write ht | fails ht =>
    rw [ht] at hloads
    cases hloads

/-! ## What the native stream has taken -/

/-- The buffers at an address that the native stream holds or has completed. -/
def Shared.held (s : Shared) (pointer : Nat) : Nat :=
  (atPointer pointer s.native.outstanding).length + completionsAt pointer s.trace

/-- A write that the native stream refuses is the last one. -/
def Held (s : Shared) (threads : Multiset Thread) : Prop :=
  (∀ p, writesAt p (written s.trace) ≤ s.held p) ∨
    ∃ init last, written s.trace = init ++ [last] ∧ (∀ p, writesAt p init ≤ s.held p) ∧
      ∀ t ∈ threads, ∀ g, t.stage = some g → g = .stopped

/-- A completion gives a buffer back, and there is no other way to lose one. -/
theorem call_held {n n' : Native} {c : Callback} (h : n.call c = some n') (p : Nat) :
    (atPointer p n.outstanding).length ≤
      (atPointer p n'.outstanding).length + completionsAt p [.callbackBegun c] := by
  cases c with
  | writeCompleted pointer =>
    obtain ⟨-, ho⟩ := call_writeCompleted h
    rw [ho, completionsAt_single]
    by_cases hp : pointer = p
    · subst hp
      rw [atPointer_erase, List.length_tail, if_pos rfl]
      omega
    · rw [atPointer_erase_ne (Ne.symm hp)]
      exact Nat.le_add_right _ _
  | _ =>
    cases h
    exact Nat.le_add_right _ _

theorem outside_held {who : Request.Outside} (h : step cfg s (.outside who) ch = some (s', ts))
    (p : Nat) : s.held p ≤ s'.held p := by
  rw [step] at h
  revert h
  fun_cases outsideStep s who ch <;> intro h
  case case1 c _ =>
    obtain ⟨native, hcall, heq⟩ := Option.map_eq_some_iff.mp h
    cases heq
    have hp := call_held hcall p
    show _ + completionsAt p s.trace ≤ (atPointer p native.outstanding).length +
      completionsAt p (s.trace ++ [.callbackBegun c])
    rw [completionsAt_append]
    omega
  all_goals
    cases h
    try exact Nat.le_refl _

/-- The buffers that are held stay, or come back. -/
theorem held_kept (h : step cfg s t ch = some (s', ts)) {n p : Nat}
    (ho : (atPointer p s.native.outstanding).length + n ≤
      (atPointer p s'.native.outstanding).length) : s.held p + n ≤ s'.held p := by
  obtain ⟨l, htrace, -⟩ := (step_publishes h).trace
  unfold Shared.held
  rw [htrace, completionsAt_append]
  omega

theorem held_grows (h : step cfg s t ch = some (s', ts)) (p : Nat) : s.held p ≤ s'.held p := by
  cases (step_side h).handsOver with
  | still ho | fails _ _ ho =>
    have ho' : s'.native.outstanding = s.native.outstanding := ho
    exact held_kept (n := 0) h (Nat.le_of_eq (by rw [ho']; rfl))
  | write ht ho =>
    have ho' : s'.native.outstanding = s.native.outstanding ++ [_] := ho
    refine held_kept (n := 0) h ?_
    rw [ho', atPointer_append, List.length_append]
    exact Nat.le_add_right _ _
  | calls ht =>
    subst ht
    exact outside_held h p

/-- The write loop does not go on once it has stopped. -/
theorem SideStep.stopped {s s' : Side} (hs : SideStep cfg s t ts s')
    (ht : ∀ g, t.stage = some g → g = .stopped) :
    ∀ u ∈ ts, ∀ g, u.stage = some g → g = .stopped := by
  have hone : ∀ u : Thread, u.stage = none ∨ u.stage = some .stopped →
      ∀ v ∈ [u], ∀ g, v.stage = some g → g = .stopped := by
    intro u hu v hv g hg
    obtain rfl := List.mem_singleton.mp hv
    rcases hu with hu | hu
    · rw [hu] at hg
      cases hg
    · exact (Option.some.inj (hu.symm.trans hg)).symm
  induction hs with
  | quiet hk | wake hk =>
    intro u hu g' hg'
    obtain ⟨g, hg, hm⟩ := hk.stage u hu g' hg'
    obtain rfl := ht g hg
    cases hm with
    | stays => rfl
    | stops => rfl
  | popData ht' | popFlush ht' | push ht' | write ht' | writeFails ht' | register ht' =>
    subst ht'
    cases ht _ rfl
  | answers ht' =>
    obtain ⟨rfl, rfl⟩ | ⟨e, rfl, rfl⟩ := ht'
    · cases ht _ rfl
    · exact hone _ (.inr rfl)
  | calls ht' _ hts =>
    subst hts
    intro u hu g hg
    rcases List.mem_pair.mp hu with rfl | rfl <;> cases hg
  | @drain who result ht' hts =>
    subst hts
    cases who with
    | terminal => exact hone _ (.inl rfl)
    | writer => exact hone _ (.inr rfl)
  | complete _ hts | begins _ hts | stores _ hts | notifies _ hts | receives _ hts
  | accepts _ _ hts | parks _ _ hts | control _ hts =>
    subst hts
    exact hone _ (.inl rfl)

theorem held_step (h : Held s (t ::ₘ rest)) (hloops : total Thread.loops (t ::ₘ rest) ≤ 1)
    (hn : step cfg s t ch = some (s', ts)) : Held s' (ts + rest) := by
  have hgrows := held_grows hn
  have hmem : t ∈ t ::ₘ rest := Multiset.mem_cons_self t rest
  have hs := step_side hn
  -- what has been written is what had been written
  have hsame : written s'.trace = written s.trace → Held s' (ts + rest) := by
    intro hw
    unfold Held
    rw [hw]
    rcases h with hall | ⟨init, last, heq, hinit, hstopped⟩
    · exact .inl fun p => Nat.le_trans (hall p) (hgrows p)
    · refine .inr ⟨init, last, heq, fun p => Nat.le_trans (hinit p) (hgrows p), ?_⟩
      exact forall_step (A := fun u => ∀ g, u.stage = some g → g = .stopped) hstopped
        (fun ht => hs.stopped ht) fun _ _ hu => hu
  cases hs.handsOver with
  | still _ hw | calls _ hw => exact hsame hw
  | @write data eos ht ho hw =>
    have hw' : written s'.trace = written s.trace ++ [⟨data, eos⟩] := hw
    have ho' : s'.native.outstanding = s.native.outstanding ++ [data] := ho
    subst ht
    rcases h with hall | ⟨init, last, heq, hinit, hstopped⟩
    · refine .inl fun p => ?_
      rw [hw', writesAt_append, writesAt_single]
      refine Nat.le_trans (Nat.add_le_add_right (hall p) _) (held_kept hn ?_)
      rw [ho', atPointer_append, List.length_append, atPointer_single]
    · cases hstopped _ hmem _ rfl
  | @fails data eos e ht hts ho hw =>
    have hw' : written s'.trace = written s.trace ++ [⟨data, eos⟩] := hw
    subst ht hts
    rcases h with hall | ⟨init, last, heq, hinit, hstopped⟩
    · refine .inr ⟨_, _, hw', fun p => Nat.le_trans (hall p) (hgrows p), ?_⟩
      intro u hu g hg
      rcases Multiset.mem_add.mp hu with hu | hu
      · obtain rfl := List.mem_singleton.mp (Multiset.mem_coe.mp hu)
        exact (Option.some.inj hg).symm
      · rw [stage_alone hloops rfl hu] at hg
        cases hg
    · cases hstopped _ hmem _ rfl

theorem held_reachable (h : Reachable (step cfg) allowed start.config c) :
    Held c.shared c.threads := by
  refine h.invariant (P := fun c => Held c.shared c.threads) (.inl fun _ => Nat.le_refl _) ?_
  rintro _ _ hr hi ⟨-, hn⟩
  exact held_step hi (orderInv_reachable hr).loops hn

/-! ## A stream that was opened with its end -/

/-- The adapter is in the hands of the application. -/
def Thread.inPoll : Thread → Bool
  | .stream .drop | .stream .closed => false
  | .stream _ => true
  | _ => false

/-- It goes back to `on_succeeded`. -/
def Thread.succeeds : Thread → Bool
  | .callback (.entered .succeeded) => true
  | .terminal (.first fallback) | .terminal (.take fallback) => fallback.isNone
  | .terminal (.ready result) | .terminal (.headers result) | .terminal (.setHeaders result)
  | .terminal (.trailers result) | .terminal (.setTrailers result) | .terminal (.watch result)
  | .finish (.drain _ result) => result.isOk
  | _ => false

/-- Where the adapter and a success come from. -/
structure Origin (t : Thread) (ch : Choice) (ts : List Thread) : Prop where
  /-- The adapter exists once the stream is ready. -/
  polls : ∀ u ∈ ts, u.inPoll = true → t.inPoll = true ∨ t = .openStream .ready
  /-- Only a callback of success leads to a success. -/
  succeeds : ∀ u ∈ ts, u.succeeds = true →
    t.succeeds = true ∨ t = .outside .cronet ∧ ch = .callback .succeeded

theorem Origin.none (h : ts.any (fun u => u.inPoll || u.succeeds) = false) : Origin t ch ts := by
  rw [List.any_eq_false] at h
  constructor
  · intro u hu hpoll
    exact absurd (by rw [hpoll]; rfl) (h u hu)
  · intro u hu hsucceeds
    exact absurd (by rw [hsucceeds, Bool.or_true]) (h u hu)

/-- Threads that have what their parent has. -/
theorem Origin.one (hpolls : u.inPoll = true → t.inPoll = true)
    (hsucceeds : u.succeeds = true → t.succeeds = true) : Origin t ch [u] := by
  constructor
  · intro v hv hpoll
    obtain rfl := List.mem_singleton.mp hv
    exact .inl (hpolls hpoll)
  · intro v hv hs
    obtain rfl := List.mem_singleton.mp hv
    exact .inl (hsucceeds hs)

theorem after_origin (op : GatedOp) (e : Option Error) : Origin t ch (op.after e) := by
  fun_cases GatedOp.after op e <;> exact .none rfl

theorem terminal_origin {p : Terminal} (h : terminalStep s p ch = some (s', ts)) :
    Origin (.terminal p) ch ts := by
  revert h
  fun_cases terminalStep s p ch <;> first | exact of_none | apply of_some
  case case3 fallback =>
    -- an error that is pending goes before the success
    refine .one Bool.noConfusion fun hs => ?_
    cases fallback with
    | none => rfl
    | some e => cases hp : s.context.pendingError <;> rw [hp] at hs <;> cases hs
  all_goals first
    | exact .none rfl
    | exact .one Bool.noConfusion id

theorem step_origin (h : step cfg s t ch = some (s', ts)) : Origin t ch ts := by
  revert h
  cases t <;> simp only [step]
  case terminal p => exact terminal_origin
  case outside who =>
    fun_cases outsideStep s who ch <;> intro h
    case case1 c _ =>
      obtain ⟨native, -, heq⟩ := Option.map_eq_some_iff.mp h
      cases heq
      constructor
      · intro u hu hpoll
        rcases List.mem_pair.mp hu with rfl | rfl <;> cases hpoll
      · intro u hu hs
        rcases List.mem_pair.mp hu with rfl | rfl
        · cases hs
        · cases c <;> first | exact .inr ⟨rfl, rfl⟩ | cases hs
    all_goals
      cases h
      try exact .none rfl
  case callback p =>
    fun_cases callbackStep cfg s p ch <;> first | exact of_none | apply of_some
    case case1 c => cases c <;> first | exact .none rfl | exact .one Bool.noConfusion fun _ => rfl
    all_goals exact .none rfl
  case finish p =>
    fun_cases finishStep s p ch <;> first | exact of_none | apply of_some
    case case3 who _ => cases who <;> exact .none rfl
    all_goals exact .none rfl
  case openStream p =>
    fun_cases openStep cfg s p ch <;> first | exact of_none | apply of_some
    case case22 =>
      refine ⟨fun _ _ _ => .inr rfl, fun u hu hs => ?_⟩
      simp only [List.mem_cons, List.not_mem_nil, or_false] at hu
      rcases hu with rfl | rfl | rfl <;> cases hs
    all_goals exact .none rfl
  case shutdown p =>
    fun_cases shutdownStep s p ch <;> first | exact of_none | apply of_some
    all_goals exact .none rfl
  case control p =>
    fun_cases controlStep s p ch <;> first | exact of_none | apply of_some
    case case26 op e => exact after_origin op e
    all_goals exact .none rfl
  case task p =>
    fun_cases taskStep cfg s p ch <;> first | exact of_none | apply of_some
    all_goals exact .none rfl
  case writer p =>
    fun_cases writerStep s p ch <;> first | exact of_none | apply of_some
    all_goals exact .none rfl
  case stream p =>
    fun_cases streamStep cfg s p ch <;> first | exact of_none | apply of_some
    all_goals first
      | exact .none rfl
      | exact .one (fun _ => rfl) Bool.noConfusion
  case cleanup p =>
    fun_cases cleanupStep s p ch <;> first | exact of_none | apply of_some
    all_goals exact .none rfl

/-- On a stream that was opened with its end, the adapter accepts nothing. -/
structure ClosedInv (s : Shared) (threads : Multiset Thread) : Prop where
  /-- The adapter is closed. -/
  closed : ∀ t ∈ threads, t.inPoll = true → s.adapter.localClosed = true
  /-- None of its polls has anything on its way. -/
  silent : ∀ t ∈ threads, t.polling = none
  /-- Nothing was accepted. -/
  accepted : accepted s.trace = []

theorem ready_closes (h : step cfg s (.openStream .ready) ch = some (s', ts))
    (hpoll : ∃ u ∈ ts, u.inPoll = true) : s'.adapter.localClosed = cfg.endOfStream := by
  obtain ⟨u, hu, hpoll⟩ := hpoll
  cases ch with
  | go =>
    rw [step, openStep] at h
    split at h
    · cases h
      rfl
    · cases h
      obtain rfl := List.mem_singleton.mp hu
      cases hpoll
    · cases h
  | drop =>
    cases h
    obtain rfl := List.mem_singleton.mp hu
    cases hpoll
  | _ => cases h

/-- The adapter stays closed. -/
theorem closed_stays {s s' : Flow} (hcfg : cfg.endOfStream = true) (hs : FlowStep cfg s t ts s')
    (h : s.closed = true) : s'.closed = true := by
  induction hs with
  | opens => exact hcfg
  | receives | ends =>
    show (s.closed || _) = true
    rw [h, Bool.true_or]
  | _ => exact h

/-- `enqueue_data` is called from a poll. -/
theorem SideStep.polling {s s' : Side} (hs : SideStep cfg s t ts s') (ht : t.polling = none) :
    (∀ u ∈ ts, u.polling = none) ∨
      ∃ op waker, t = .stream .idle ∧ ts = [.stream (.enqueue op waker)] := by
  have hone : ∀ u : Thread, u.polling = none → ∀ v ∈ [u], v.polling = none :=
    fun u hu => List.forall_mem_singleton.mpr hu
  induction hs with
  | quiet hk | wake hk =>
    refine .inl fun u hu => ?_
    cases hpoll : u.polling with
    | none => rfl
    | some p =>
      obtain ⟨-, b, hb⟩ := hk.polling u hu p.1 p.2 hpoll
      rw [ht] at hb
      cases hb
  | begins ht' hts => exact .inr ⟨_, _, ht', hts⟩
  | stores ht' =>
    subst ht'
    cases ht
  | answers ht' =>
    obtain ⟨rfl, rfl⟩ | ⟨e, rfl, rfl⟩ := ht' <;> exact .inl (hone _ rfl)
  | calls _ _ hts =>
    subst hts
    refine .inl fun u hu => ?_
    rcases List.mem_pair.mp hu with rfl | rfl <;> rfl
  | popData _ _ _ hts | popFlush _ _ _ hts | register _ _ hts | accepts _ _ hts | parks _ _ hts
  | push _ hts | write _ hts | writeFails _ hts | drain _ hts | notifies _ hts | receives _ hts
  | complete _ hts | control _ hts =>
    subst hts
    exact .inl (hone _ rfl)

theorem idle_enqueues {op : Producing} {waker : Waker}
    (h : step cfg s (.stream .idle) ch = some (s', [.stream (.enqueue op waker)])) :
    s.adapter.localClosed = false := by
  by_contra hclosed
  rw [Bool.not_eq_false] at hclosed
  cases ch with
  | pollWrite input pointer waker =>
    rw [step, streamStep, hclosed, Bool.true_or, if_pos rfl] at h
    cases h
  | pollShutdown pointer waker =>
    rw [step, streamStep, if_pos hclosed] at h
    cases h
  | pollFlush =>
    rw [step, streamStep] at h
    split at h <;> cases h
  | nextChunk =>
    rw [step, streamStep] at h
    split at h
    · cases h
    · cases h
    · cases h
    · split_ifs at h
      cases h
  | _ => cases h

theorem closedInv_step (hcfg : cfg.endOfStream = true) (h : ClosedInv s (t ::ₘ rest))
    (hn : step cfg s t ch = some (s', ts)) : ClosedInv s' (ts + rest) := by
  have hmem : t ∈ t ::ₘ rest := Multiset.mem_cons_self t rest
  have hstays : s.adapter.localClosed = true → s'.adapter.localClosed = true :=
    closed_stays hcfg (step_flow hn)
  refine ⟨?_, ?_, ?_⟩
  · refine forall_step (A := fun u => u.inPoll = true → s.adapter.localClosed = true) h.closed
      (fun hclosed u hu hpoll => ?_) fun _ _ hu hpoll => hstays (hu hpoll)
    rcases (step_origin hn).polls u hu hpoll with ht | rfl
    · exact hstays (hclosed ht)
    · exact (ready_closes hn ⟨u, hu, hpoll⟩).trans hcfg
  · refine forall_step h.silent (fun ht => ?_) fun _ _ hu => hu
    rcases (step_side hn).polling ht with hnone | ⟨op, waker, rfl, rfl⟩
    · exact hnone
    · have hopen := idle_enqueues hn
      rw [h.closed _ hmem rfl] at hopen
      cases hopen
  · rcases accepted_step (step_flow hn) with hsame | ⟨op, waker, rfl, -⟩
    · rw [Shared.flow, Shared.flow, accepted_flows, accepted_flows] at hsame
      exact hsame.trans h.accepted
    · cases h.silent _ hmem

theorem closedInv_init : ClosedInv {} start.config.threads where
  closed := by
    intro t ht hpoll
    rw [Listed.config, start, Multiset.mem_coe] at ht
    simp only [List.mem_cons, List.not_mem_nil, or_false] at ht
    rcases ht with rfl | rfl | rfl <;> cases hpoll
  silent := by
    intro t ht
    rw [Listed.config, start, Multiset.mem_coe] at ht
    simp only [List.mem_cons, List.not_mem_nil, or_false] at ht
    rcases ht with rfl | rfl | rfl <;> rfl
  accepted := rfl

theorem closedInv_reachable (hcfg : cfg.endOfStream = true)
    (h : Reachable (step cfg) allowed start.config c) : ClosedInv c.shared c.threads := by
  refine h.invariant (P := fun c => ClosedInv c.shared c.threads) closedInv_init ?_
  rintro _ _ - hi ⟨-, hn⟩
  exact closedInv_step hcfg hi hn

/-! ## A stream that succeeds -/

/-- The end of the stream has been written and completed. -/
def EndCompleted (tr : List Event) : Prop :=
  ∃ data : Buffer, { data := data, endOfStream := true } ∈ written tr ∧
    writesAt data.pointer (written tr) ≤ completionsAt data.pointer tr

/-- `on_succeeded` comes when every write that the native stream has accepted is completed, the
one that ends the stream included; a stream that was opened with its end has none to end it. -/
def SucceedsCompleted (cfg : Settings) : Policy Shared Thread Choice := fun c t ch =>
  t = .outside .cronet → ch = .callback .succeeded →
    c.shared.native.outstanding = [] ∧ (cfg.endOfStream = true ∨ EndCompleted c.shared.trace)

/-- All that was accepted has been completed. -/
theorem succeeds_completed (h : Reachable (step cfg) allowed start.config c)
    (ho : c.shared.native.outstanding = [])
    (hend : cfg.endOfStream = true ∨ EndCompleted c.shared.trace) :
    Completed c.shared.trace (accepted c.shared.trace).length := by
  rcases hend with hcfg | ⟨data, hwritten, hcompletions⟩
  · rw [(closedInv_reachable hcfg h).accepted]
    exact ⟨Nat.zero_le _, fun _ => Nat.zero_le _⟩
  · obtain ⟨l, r, heq⟩ := List.append_of_mem hwritten
    obtain ⟨rfl, hacc⟩ := (writes_in_order h).endOfStream l _ r heq rfl
    have hall : accepted c.shared.trace = written c.shared.trace := hacc.trans heq.symm
    rw [hall]
    refine ⟨Nat.le_refl _, fun p => ?_⟩
    rw [List.take_length]
    have hheld : c.shared.held p = completionsAt p c.shared.trace := by
      rw [Shared.held, ho]
      exact Nat.zero_add _
    rcases held_reachable h with hfull | ⟨init, last, hlast, hinit, -⟩
    · exact hheld ▸ hfull p
    · -- the write that may have been refused is the one that ends the stream
      obtain ⟨rfl, hsame⟩ := List.append_inj' (hlast.symm.trans heq) rfl
      obtain rfl := List.head_eq_of_cons_eq hsame
      by_cases hp : data.pointer = p
      · exact hp ▸ hcompletions
      · have hp' := hinit p
        rw [hlast, writesAt_append, writesAt_single, if_neg hp]
        omega

/-- What holds since the stream has succeeded. -/
structure SuccessInv (cfg : Settings) (c : Config Shared Thread) : Prop where
  /-- Whoever brings the success has it from the callback. -/
  succeeds : ∀ t ∈ c.threads, t.succeeds = true → .callbackBegun .succeeded ∈ c.shared.trace
  /-- Everything was completed when it came. -/
  completed : .callbackBegun .succeeded ∈ c.shared.trace →
    Completed c.shared.trace (accepted c.shared.trace).length ∧
      (cfg.endOfStream = true ∨ ∃ write ∈ accepted c.shared.trace, write.endOfStream = true)

/-- A callback is made by the native side alone. -/
theorem callback_outside {callback : Callback}
    (h : step cfg s t (.callback callback) = some (s', ts)) : t = .outside .cronet := by
  cases t with
  | outside who => cases who <;> first | rfl | cases h
  | task p =>
    cases p with
    | record site e => cases site <;> cases h
    | _ => cases h
  | stream p =>
    cases p with
    | notify op => cases op <;> cases h
    | _ => cases h
  | cleanup p =>
    cases p with
    | drop why | context why => cases why <;> cases h
    | _ => cases h
  | openStream p =>
    cases p with
    | close e => cases e <;> cases h
    | _ => cases h
  | control p =>
    cases p with
    | raw op | done op | claim op | call op => cases op <;> cases h
    | _ => cases h
  | shutdown p | callback p | terminal p | finish p | writer p => cases p <;> cases h

theorem succeeded_acts {tr : List Event} :
    Act.succeeded ∈ acts tr ↔ .callbackBegun .succeeded ∈ tr := by
  constructor
  · intro h
    obtain ⟨e, he, hact⟩ := List.mem_filterMap.mp h
    cases e with
    | callbackBegun callback =>
      cases callback with
      | succeeded => exact he
      | _ => cases hact
    | recorded e =>
      rw [Event.act] at hact
      split at hact <;> cases hact
    | _ => cases hact
  · exact fun h => List.mem_filterMap.mpr ⟨_, h, rfl⟩

/-- A stream succeeds when the native side says so. -/
theorem succeeded_step (h : step cfg s t ch = some (s', ts))
    (hnew : .callbackBegun .succeeded ∈ s'.trace) :
    .callbackBegun .succeeded ∈ s.trace ∨ t = .outside .cronet ∧ ch = .callback .succeeded := by
  obtain ⟨-, a, hturn, -⟩ := step_reads h
  rw [← succeeded_acts, hturn.acts, List.mem_append] at hnew
  rcases hnew with hold | hnew
  · exact .inl (succeeded_acts.mp hold)
  · right
    obtain rfl := Option.mem_toList.mp hnew
    generalize ha : some Act.succeeded = a at hturn
    cases hturn.acted with
    | begins callback hch =>
      subst hch
      refine ⟨callback_outside h, ?_⟩
      cases callback with
      | succeeded => rfl
      | _ => cases ha
    | _ => cases ha

theorem outside_succeeds
    (h : step cfg s (.outside .cronet) (.callback .succeeded) = some (s', ts)) :
    s'.trace = s.trace ++ [.callbackBegun .succeeded] := by
  rw [step, outsideStep] at h
  split_ifs at h
  cases h
  rfl

/-- Once the end of the stream is accepted, or was there from the start, nothing more is. -/
theorem ended_accepts (hc : Reachable (step cfg) allowed start.config ⟨s, t ::ₘ rest⟩)
    (hend : cfg.endOfStream = true ∨ ∃ write ∈ accepted s.trace, write.endOfStream = true)
    (hn : step cfg s t ch = some (s', ts)) : accepted s'.trace = accepted s.trace := by
  rcases accepted_step (step_flow hn) with hsame | ⟨op, waker, rfl, hopen, -⟩
  · rw [Shared.flow, Shared.flow, accepted_flows, accepted_flows] at hsame
    exact hsame
  · rcases hend with hcfg | ⟨write, hw, heos⟩
    · cases (closedInv_reachable hcfg hc).silent _ (Multiset.mem_cons_self _ rest)
    · have hclosed : s.write.state.localClosed = true :=
        (orderInv_reachable hc).closed write hw heos
      cases hclosed.symm.trans hopen

theorem successInv_step (hc : Reachable (step cfg) allowed start.config ⟨s, t ::ₘ rest⟩)
    (h : SuccessInv cfg ⟨s, t ::ₘ rest⟩) (ha : SucceedsCompleted cfg ⟨s, t ::ₘ rest⟩ t ch)
    (hn : step cfg s t ch = some (s', ts)) : SuccessInv cfg ⟨s', ts + rest⟩ := by
  obtain ⟨l, htrace, -⟩ := (step_publishes hn).trace
  have hkeep : .callbackBegun .succeeded ∈ s.trace → .callbackBegun .succeeded ∈ s'.trace := by
    intro hold
    rw [htrace]
    exact List.mem_append_left l hold
  constructor
  · refine forall_step (A := fun u => u.succeeds = true → .callbackBegun .succeeded ∈ s.trace)
      h.succeeds ?_ fun _ _ hu hs => hkeep (hu hs)
    intro ht u hu hs
    rcases (step_origin hn).succeeds u hu hs with hold | ⟨rfl, rfl⟩
    · exact hkeep (ht hold)
    · show _ ∈ s'.trace
      rw [outside_succeeds hn]
      exact List.mem_append_right _ (List.mem_singleton_self _)
  · intro hnew
    -- what was completed before the step is completed after it
    have hpass : Completed s.trace (accepted s.trace).length →
        cfg.endOfStream = true ∨ (∃ write ∈ accepted s.trace, write.endOfStream = true) →
        Completed s'.trace (accepted s'.trace).length ∧
          (cfg.endOfStream = true ∨ ∃ write ∈ accepted s'.trace, write.endOfStream = true) := by
      intro hdone hend
      rw [ended_accepts hc hend hn]
      refine ⟨?_, hend⟩
      rw [htrace]
      exact hdone.append l
    rcases succeeded_step hn hnew with hold | ⟨rfl, rfl⟩
    · obtain ⟨hdone, hend⟩ := h.completed hold
      exact hpass hdone hend
    · obtain ⟨ho, hend⟩ := ha rfl rfl
      refine hpass (succeeds_completed hc ho hend) (hend.imp_right ?_)
      rintro ⟨data, hwritten, -⟩
      exact ⟨_, (orderInv_reachable hc).ordered.subset hwritten, rfl⟩

theorem successInv_reachable (h : Reachable (step cfg) (SucceedsCompleted cfg) start.config c) :
    SuccessInv cfg c := by
  refine h.invariant (P := SuccessInv cfg) ⟨?_, fun hnew => by cases hnew⟩ ?_
  · intro t ht hs
    rw [Listed.config, start, Multiset.mem_coe] at ht
    simp only [List.mem_cons, List.not_mem_nil, or_false] at ht
    rcases ht with rfl | rfl | rfl <;> cases hs
  · rintro _ _ hr hi ⟨ha, hn⟩
    exact successInv_step hr hi ha hn

/-- **`finish` answers with `Ok` on a stream all of whose writes are completed.** -/
theorem finish_completed (h : Reachable (step cfg) (SucceedsCompleted cfg) start.config c)
    {who : Finisher} (ht : .finish (.drain who (.ok ())) ∈ c.threads) :
    Completed c.shared.trace (accepted c.shared.trace).length := by
  have hi := successInv_reachable h
  exact (hi.completed (hi.succeeds _ ht rfl)).1

end

/-! ## The number of a flush -/

section

variable {cfg : Settings} {s s' : Flow} {t u : Thread} {ts : List Thread} {rest : Multiset Thread}
  {op : PollOp} {w : Waiter}

/-- Only the adapter looks at the next number. -/
theorem FlowStep.rebase (hs : FlowStep cfg s t ts s') (ht : t.adapts = 0) (w : Waiter) :
    FlowStep cfg { s with next := w } t ts { s' with next := w } := by
  induction hs with
  | quiet hp hstarting => exact .quiet hp hstarting
  | popData h hq hts => exact .popData h hq hts
  | popFlush h hterm hq hts => exact .popFlush h hterm hq hts
  | push h hts => exact .push h hts
  | write h hts => exact .write h hts
  | flush h hts => exact .flush h hts
  | register h hcount hts => exact .register h hcount hts
  | answers h hcount hts => exact .answers h hcount hts
  | refuses h hts => exact .refuses h hts
  | calls h hts => exact .calls h hts
  | completes h hts => exact .completes h hts
  | unblocks h hcount hts => exact .unblocks h hcount hts
  | drain h hts => exact .drain h hts
  | opens h hts => exact .opens h hts
  | accepts h | waits h | begins h | starts h | enqueues h | stores h | receives h | ends h =>
    rw [h] at ht
    cases ht
  | polls h hstarting hts hop => exact .polls h hstarting hts hop
  | fails h hts hr => exact .fails h hts hr

/-- The adapter is given the next number. -/
theorem brings_new (hs : FlowStep cfg s t ts s') (h : .stream (.control op w) ∈ ts) :
    ts = [.stream (.control op w)] ∧ w = s.next ∧
      ∃ started, s' = { s with started := started, next := s.next + 1 } := by
  induction hs with
  | quiet hp => cases hp.brings _ h
  | begins _ _ hts =>
    subst hts
    cases List.mem_singleton.mp h
    exact ⟨rfl, rfl, s.started, rfl⟩
  | starts _ hts =>
    subst hts
    cases List.mem_singleton.mp h
    exact ⟨rfl, rfl, true, rfl⟩
  | opens _ hts | calls _ hts =>
    subst hts
    simp only [List.mem_cons, List.not_mem_nil, or_false] at h
    rcases h with h | h | h <;> cases h
  | popData _ _ hts | register _ _ hts | answers _ _ hts | unblocks _ _ hts | accepts _ _ hts
  | ends _ _ hts | polls _ _ hts | popFlush _ _ _ hts | receives _ _ _ hts | push _ hts
  | write _ hts | flush _ hts | refuses _ hts | completes _ hts | drain _ hts | waits _ hts
  | enqueues _ hts | stores _ hts | fails _ hts =>
    subst hts
    cases List.mem_singleton.mp h

/-- The flush that is being brought to the queue has the highest number. -/
def Newest (s : Flow) (threads : Multiset Thread) : Prop :=
  ∀ op w rest, threads = .stream (.control op w) ::ₘ rest → FreshInv { s with next := w } rest

theorem newest_step (h : Newest s (t ::ₘ rest)) (hfresh : FreshInv s (t ::ₘ rest))
    (hone : total Thread.adapts (t ::ₘ rest) ≤ 1) (hs : FlowStep cfg s t ts s') :
    Newest s' (ts + rest) := by
  intro op w rest' heq
  have hmem : .stream (.control op w) ∈ (ts : Multiset Thread) + rest :=
    heq ▸ Multiset.mem_cons_self _ _
  rcases Multiset.mem_add.mp hmem with hown | hother
  · obtain ⟨rfl, rfl, started, rfl⟩ := brings_new hs (Multiset.mem_coe.mp hown)
    rw [Multiset.coe_singleton, Multiset.singleton_add, Multiset.cons_inj_right] at heq
    subst heq
    exact ⟨hfresh.queued, hfresh.waiting, hfresh.answered,
      fun u hu => hfresh.carried u (Multiset.mem_cons_of_mem hu),
      fun u hu => hfresh.brought u (Multiset.mem_cons_of_mem hu)⟩
  · obtain ⟨r, rfl⟩ := Multiset.exists_cons_of_mem hother
    have hold : FreshInv { s with next := w } (t ::ₘ r) := h op w _ (Multiset.cons_swap _ _ _)
    have hnew := freshInv_step hold (hs.rebase (adapts_rest hone hother rfl) w)
    rw [Multiset.add_cons, Multiset.cons_inj_right] at heq
    exact heq ▸ hnew

theorem newest_reachable {allowed : Policy Shared Thread Choice} {c : Config Shared Thread}
    (h : Reachable (step cfg) allowed start.config c) : Newest c.shared.flow c.threads := by
  refine h.invariant (P := fun c => Newest c.shared.flow c.threads) ?_ ?_
  · intro op w rest heq
    have hmem : .stream (.control op w) ∈ start.config.threads := heq ▸ Multiset.mem_cons_self _ _
    rw [Listed.config, start, Multiset.mem_coe] at hmem
    simp only [List.mem_cons, List.not_mem_nil, or_false] at hmem
    rcases hmem with hmem | hmem | hmem <;> cases hmem
  · rintro _ _ hr hi ⟨-, hn⟩
    exact newest_step hi (freshInv_reachable hr) (adapts_reachable hr) (step_flow hn)

/-- All that was accepted is before the flush that is being brought to the queue. -/
theorem Newest.covering {Good : List Event → Prop} {threads : Multiset Thread}
    (h : Newest s threads) (hw : .stream (.control op w) ∈ threads) :
    Covering Good (accepted s.trace).length w s threads := by
  obtain ⟨rest, rfl⟩ := Multiset.exists_cons_of_mem hw
  have hcovering : Covering Good (accepted s.trace).length w { s with next := w } rest :=
    (h op w rest rfl).covering
  refine ⟨hcovering.accepted, hcovering.queued, ?_, hcovering.waiting, hcovering.answered⟩
  intro t ht
  rcases Multiset.mem_cons.mp ht with rfl | ht
  · exact fun _ _ hcarries => by cases hcarries
  · exact hcovering.carried t ht

/-! ## Who answers -/

/-- The native flush is called for a flush before it is answered or waits. -/
structure CallsFlush (s : Flow) (t : Thread) (ts : List Thread) (s' : Flow) : Prop where
  /-- A flush that is carried on was called for. -/
  carried : ∀ u ∈ ts, ∀ w, u.carries = some (w, true) → t.carries = some (w, true) ∨
    t.carries = some (w, false) ∧ s'.trace = s.trace ++ [.flush]
  /-- A flush that waits was called for. -/
  waiting : ∀ w ∈ s'.state.flushWaiters, w ∈ s.state.flushWaiters ∨ t.carries = some (w, true)

theorem FlowStep.callsFlush (hs : FlowStep cfg s t ts s') : CallsFlush s t ts s' := by
  have hnone : ∀ u : Thread, u.carries = none → ∀ v ∈ [u], ∀ w, v.carries = some (w, true) →
      t.carries = some (w, true) ∨ t.carries = some (w, false) ∧ s'.trace = s.trace ++ [.flush] :=
    fun u hu v hv w hw => carries_none (P := fun x => t.carries = some x ∨ _) hu v hv (w, true) hw
  induction hs with
  | quiet hp => exact ⟨fun u hu w hw => .inl (hp.carries u hu _ hw), fun w hw => .inl hw⟩
  | flush ht hts =>
    subst ht hts
    refine ⟨?_, fun w hw => .inl hw⟩
    intro u hu w hw
    obtain rfl := List.mem_singleton.mp hu
    cases hw
    exact .inr ⟨rfl, rfl⟩
  | register ht _ hts =>
    subst hts
    refine ⟨hnone _ rfl, ?_⟩
    intro w hw
    rcases List.mem_append.mp hw with hw | hw
    · exact .inl hw
    · rw [List.mem_singleton.mp hw, ht]
      exact .inr rfl
  | popFlush _ _ _ hts =>
    subst hts
    refine ⟨?_, fun w hw => .inl hw⟩
    intro u hu w hw
    obtain rfl := List.mem_singleton.mp hu
    cases hw
  | completes _ hts =>
    subst hts
    exact ⟨hnone _ rfl, fun w hw => .inl (remove_flushWaiters (w := s.state) ▸ hw)⟩
  | unblocks _ _ hts | drain _ hts =>
    subst hts
    exact ⟨hnone _ rfl, nofun⟩
  | opens _ hts | calls _ hts =>
    subst hts
    refine ⟨?_, fun w hw => .inl hw⟩
    intro u hu w hw
    simp only [List.mem_cons, List.not_mem_nil, or_false] at hu
    rcases hu with rfl | rfl | rfl <;> cases hw
  | popData _ _ hts | answers _ _ hts | begins _ _ hts | accepts _ _ hts | ends _ _ hts
  | polls _ _ hts | receives _ _ _ hts | push _ hts | write _ hts | refuses _ hts | starts _ hts
  | waits _ hts | enqueues _ hts | stores _ hts | fails _ hts =>
    subst hts
    exact ⟨hnone _ rfl, fun w hw => .inl hw⟩

/-- Who answers a flush with `Ok`. -/
inductive Answers (s : Flow) (t : Thread) (s' : Flow) (w : Waiter) : Prop
  /-- The native flush has been called, and no write is in flight. -/
  | flushed : t.carries = some (w, true) ∨ w ∈ s.state.flushWaiters →
      s'.state.inFlightCount = 0 → written s'.trace = written s.trace →
      (∀ p, completionsAt p s'.trace = completionsAt p s.trace) → Answers s t s' w
  | finishes {who : Finisher} : t = .finish (.drain who (.ok ())) → Answers s t s' w

theorem answers_step {l : List Event} (hs : FlowStep cfg s t ts s') (htr : s'.trace = s.trace ++ l)
    (hans : .answered w (.ok ()) ∈ l) : Answers s t s' w := by
  induction hs with
  | answers ht hzero =>
    obtain rfl := List.append_cancel_left htr
    cases List.mem_singleton.mp hans
    refine .flushed (.inl (by rw [ht]; rfl)) hzero ?_ ?_
    · exact (written_append _ _).trans (List.append_nil _)
    · exact fun _ => completionsAt_append
  | unblocks ht hzero =>
    obtain rfl := List.append_cancel_left htr
    refine .flushed (.inr (mem_answers hans).1) hzero ?_ ?_
    · rw [written_append, written_answers, List.append_nil]
    · intro p
      rw [completionsAt_append, completionsAt_answers, Nat.add_zero]
  | drain ht =>
    obtain rfl := List.append_cancel_left htr
    obtain ⟨-, rfl⟩ := mem_answers hans
    exact .finishes ht
  | quiet | popData | popFlush | push | register | completes | opens | waits | begins | starts
  | enqueues | stores =>
    obtain rfl := List.append_cancel_left ((List.append_nil _).trans htr)
    cases hans
  | write | flush | refuses | calls | accepts | receives | ends | polls | fails =>
    obtain rfl := List.append_cancel_left htr
    cases List.mem_singleton.mp hans

end

/-! ## Runs -/

section

variable {cfg : Settings} {s s' : Shared} {t : Thread} {ch : Choice} {ts : List Thread}
  {rest : Multiset Thread} {b c : Config Shared Thread} {op : PollOp} {w : Waiter}

/-- In the run from `before` the native flush was called, and after the first `n` writes. -/
def FlushedSince (before : List Event) (n : Nat) (tr : List Event) : Prop :=
  ∃ l r, tr = l ++ .flush :: r ∧ before <+: l ∧ n ≤ (written l).length

theorem FlushedSince.append {before tr : List Event} {n : Nat} (h : FlushedSince before n tr)
    (l : List Event) : FlushedSince before n (tr ++ l) := by
  obtain ⟨l', r, rfl, hbefore, hn⟩ := h
  exact ⟨l', r ++ l, by rw [List.append_assoc]; rfl, hbefore, hn⟩

/-- The flushes from `first` on that the write loop has called the native flush for. -/
structure Issued (before : List Event) (n : Nat) (first : Waiter) (s : Shared)
    (threads : Multiset Thread) : Prop where
  /-- The run goes on from the beginning. -/
  grows : before <+: s.trace
  /-- A flush that is carried was called for. -/
  carried : ∀ t ∈ threads, ∀ w, t.carries = some (w, true) → first ≤ w →
    FlushedSince before n s.trace
  /-- A flush that waits was called for. -/
  waiting : ∀ w ∈ s.write.state.flushWaiters, first ≤ w → FlushedSince before n s.trace

/-- What a run says of the flush `w`, which stands behind `n` writes. -/
structure AnswerInv (before : List Event) (n : Nat) (w : Waiter) (c : Config Shared Thread) :
    Prop where
  /-- What the flush says of the writes before it. -/
  covering : Covering (fun tr => Completed tr n) n w c.shared.flow c.threads
  /-- It was called for. -/
  issued : Issued before n w c.shared c.threads

/-- The native flush that a step calls. -/
theorem flush_since {before : List Event} {n : Nat} {l : List Event}
    (hgrows : before <+: s.trace) (htrace : s'.trace = s.trace ++ l)
    (hflush : s'.flow.trace = s.flow.trace ++ [.flush])
    (hn : n ≤ (written s.flow.trace).length) : FlushedSince before n s'.trace := by
  have hl : l.filter Event.flows = [.flush] := by
    rw [Shared.flow, htrace, List.filter_append] at hflush
    exact List.append_cancel_left hflush
  obtain ⟨l', r, rfl, -⟩ := List.filter_eq_cons_iff.mp hl
  refine ⟨s.trace ++ l', r, ?_, hgrows.trans (List.prefix_append _ _), ?_⟩
  · rw [htrace, List.append_assoc]
  · rw [Shared.flow, written_flows] at hn
    rw [written_append, List.length_append]
    exact Nat.le_add_right_of_le hn

theorem issued_step {before : List Event} {n : Nat} {first : Waiter}
    (h : AnswerInv before n first ⟨s, t ::ₘ rest⟩) (hn : step cfg s t ch = some (s', ts)) :
    Issued before n first s' (ts + rest) := by
  obtain ⟨l, htrace, -⟩ := (step_publishes hn).trace
  have hmem : t ∈ t ::ₘ rest := Multiset.mem_cons_self t rest
  have hcalls := (step_flow hn).callsFlush
  have hkeep : FlushedSince before n s.trace → FlushedSince before n s'.trace := by
    intro hsince
    rw [htrace]
    exact hsince.append l
  refine ⟨?_, ?_, ?_⟩
  · rw [htrace]
    exact h.issued.grows.trans (List.prefix_append _ _)
  · intro u hu w hcarries hw
    rcases Multiset.mem_add.mp hu with hu | hu
    · rcases hcalls.carried u (Multiset.mem_coe.mp hu) w hcarries with hold | ⟨hold, hflush⟩
      · exact hkeep (h.issued.carried t hmem w hold hw)
      · exact flush_since h.issued.grows htrace hflush (h.covering.carried t hmem w false hold hw).1
    · exact hkeep (h.issued.carried u (Multiset.mem_cons_of_mem hu) w hcarries hw)
  · intro w hwaits hw
    rcases hcalls.waiting w hwaits with hold | hold
    · exact hkeep (h.issued.waiting w hold hw)
    · exact hkeep (h.issued.carried t hmem w hold hw)

theorem answerInv_step {before : List Event} {n : Nat}
    (hc : Reachable (step cfg) (SucceedsCompleted cfg) start.config ⟨s, t ::ₘ rest⟩)
    (h : AnswerInv before n w ⟨s, t ::ₘ rest⟩) (hn : step cfg s t ch = some (s', ts)) :
    AnswerInv before n w ⟨s', ts + rest⟩ := by
  have hmem : t ∈ t ::ₘ rest := Multiset.mem_cons_self t rest
  refine ⟨?_, issued_step h hn⟩
  refine covering_step h.covering lasting_completed (ledgerInv_reachable hc) ?_ ?_ (step_flow hn)
  · rintro epoch rfl hterm
    exact popped_sync hc hmem hterm
  · rintro who rfl
    have haccepted := h.covering.accepted
    rw [Shared.flow, accepted_flows] at haccepted
    exact .inr (completed_flows.mpr ((finish_completed hc hmem).le haccepted))

/-- In the beginning the flush is about to be put into the queue. -/
theorem answerInv_init (hb : Reachable (step cfg) (SucceedsCompleted cfg) start.config b)
    (hw : .stream (.control op w) ∈ b.threads) :
    AnswerInv b.shared.trace (accepted b.shared.trace).length w b := by
  have hnewest := newest_reachable hb
  have hcovering : Covering (fun tr => Completed tr (accepted b.shared.trace).length)
      (accepted b.shared.flow.trace).length w b.shared.flow b.threads := hnewest.covering hw
  rw [Shared.flow, accepted_flows] at hcovering
  obtain ⟨rest, hrest⟩ := Multiset.exists_cons_of_mem hw
  have hfresh := hnewest op w rest hrest
  refine ⟨hcovering, List.prefix_rfl, ?_, ?_⟩
  · intro u hu w' hcarries hle
    rw [hrest] at hu
    rcases Multiset.mem_cons.mp hu with rfl | hu
    · cases hcarries
    · exact absurd hle (hfresh.carried u hu w' true hcarries).not_ge
  · intro w' hwaits hle
    exact absurd hle (hfresh.waiting w' hwaits).not_ge

theorem answerInv_reachable (hb : Reachable (step cfg) (SucceedsCompleted cfg) start.config b)
    (hw : .stream (.control op w) ∈ b.threads)
    (hc : Reachable (step cfg) (SucceedsCompleted cfg) b c) :
    AnswerInv b.shared.trace (accepted b.shared.trace).length w c := by
  refine hc.invariant (P := AnswerInv b.shared.trace (accepted b.shared.trace).length w)
    (answerInv_init hb hw) ?_
  rintro _ _ hr hi ⟨-, hn⟩
  exact answerInv_step (hb.trans hr) hi hn

theorem completed_same {tr tr' : List Event} {n : Nat} (h : Completed tr' n)
    (hw : written tr' = written tr) (hc : ∀ p, completionsAt p tr' = completionsAt p tr) :
    Completed tr n := by
  refine ⟨?_, fun p => ?_⟩
  · rw [← hw]
    exact h.written
  · rw [← hw, ← hc p]
    exact h.completed p

/-- A completed write is one of those that were accepted first. -/
theorem prefix_written {before : List Event}
    (hc : Reachable (step cfg) (SucceedsCompleted cfg) start.config c)
    (hgrows : before <+: c.shared.trace)
    (hn : (accepted before).length ≤ (written c.shared.trace).length) :
    accepted before <+: written c.shared.trace := by
  obtain ⟨l, hl⟩ := hgrows
  have haccepted : accepted before <+: accepted c.shared.trace := by
    rw [← hl, accepted_append]
    exact List.prefix_append _ _
  exact List.prefix_of_prefix_length_le haccepted (orderInv_reachable hc).ordered hn

/-- **A flush is answered with `Ok` only after what was enqueued before it**: in a run of a
native stream that does not succeed before its writes are completed, from a state on in which
the flush is about to be put into the queue, what had been accepted before has been written
and completed when it is answered, and the native flush was called in between, unless it is
`finish` that answers. And nothing is written while the queue is blocked. -/
theorem flush_answers (hb : Reachable (step cfg) (SucceedsCompleted cfg) start.config b)
    (hw : .stream (.control op w) ∈ b.threads)
    (hc : Reachable (step cfg) (SucceedsCompleted cfg) b c) (hthreads : c.threads = t ::ₘ rest)
    (hn : step cfg c.shared t ch = some (s', ts)) :
    (∀ l, s'.trace = c.shared.trace ++ l → .answered w (.ok ()) ∈ l →
      accepted b.shared.trace <+: written c.shared.trace ∧
      Completed c.shared.trace (accepted b.shared.trace).length ∧
      (FlushedSince b.shared.trace (accepted b.shared.trace).length c.shared.trace ∨
        ∃ who, t = .finish (.drain who (.ok ())))) ∧
    (c.shared.write.state.flushBlocked = true → written s'.trace = written c.shared.trace) := by
  have hi := answerInv_reachable hb hw hc
  have hcr := hb.trans hc
  obtain ⟨s, threads⟩ := c
  obtain rfl := hthreads
  have hmem : t ∈ t ::ₘ rest := Multiset.mem_cons_self t rest
  refine ⟨?_, fun hblocked => blocked_writes hcr rfl hblocked hn⟩
  intro l htrace hans
  have hdone : Completed s.trace (accepted b.shared.trace).length ∧
      (FlushedSince b.shared.trace (accepted b.shared.trace).length s.trace ∨
        ∃ who, t = .finish (.drain who (.ok ()))) := by
    have hflow : s'.flow.trace = s.flow.trace ++ l.filter Event.flows := by
      rw [Shared.flow, htrace, List.filter_append]
      rfl
    cases answers_step (step_flow hn) hflow (List.mem_filter.mpr ⟨hans, rfl⟩) with
    | flushed hflush hzero hwritten hcompletions =>
      have hsince : (accepted b.shared.trace).length ≤ (written s.flow.trace).length ∧
          FlushedSince b.shared.trace (accepted b.shared.trace).length s.trace := by
        rcases hflush with hcarries | hwaits
        · exact ⟨(hi.covering.carried t hmem w true hcarries le_rfl).1,
            hi.issued.carried t hmem w hcarries le_rfl⟩
        · exact ⟨(hi.covering.waiting w hwaits le_rfl).1, hi.issued.waiting w hwaits le_rfl⟩
      have hledger := ledgerInv_step (ledgerInv_reachable hcr) (step_flow hn)
      have hcompleted := hledger.completed hzero (hwritten ▸ hsince.1)
      exact ⟨completed_flows.mp (completed_same hcompleted hwritten hcompletions), .inl hsince.2⟩
    | finishes ht =>
      subst ht
      have haccepted := hi.covering.accepted
      rw [Shared.flow, accepted_flows] at haccepted
      exact ⟨(finish_completed hcr hmem).le haccepted, .inr ⟨_, rfl⟩⟩
  exact ⟨prefix_written hcr hi.issued.grows hdone.1.written, hdone⟩

/-- `SucceedsCompleted` as a test. -/
def succeedsCompleted (c : Listed Shared Thread) (t : Thread) (ch : Choice) : Bool :=
  match t, ch with
  | .outside .cronet, .callback .succeeded =>
    c.shared.native.outstanding.isEmpty && (written c.shared.trace).any fun write =>
      write.endOfStream && decide (writesAt write.data.pointer (written c.shared.trace) ≤
        completionsAt write.data.pointer c.shared.trace)
  | _, _ => true

theorem succeedsCompleted_sound (c : Listed Shared Thread) (t : Thread) (ch : Choice)
    (h : succeedsCompleted c t ch = true) : SucceedsCompleted cfg c.config t ch := by
  rintro rfl rfl
  obtain ⟨ho, hend⟩ := Bool.and_eq_true_iff.mp h
  refine ⟨List.isEmpty_iff.mp ho, .inr ?_⟩
  obtain ⟨⟨data, eos⟩, hwrite, hcompleted⟩ := List.any_eq_true.mp hend
  obtain ⟨heos, hle⟩ := Bool.and_eq_true_iff.mp hcompleted
  obtain rfl : eos = true := heos
  exact ⟨data, hwrite, of_decide_eq_true hle⟩

/-- A byte is written, and a flush is about to be put into the queue behind it. -/
def writesFlush : Schedule := opens ++ writes ++ [(.stream .idle, [.pollFlush])]

/-- The flush waits behind the byte, whose completion comes. -/
def completesFlush : Schedule :=
  [(.stream (.control .flush 0), go 2),
   (.writer .top, go 11),
   (.outside .cronet, [.callback (.writeCompleted 0)]),
   (.callback (.entered (.writeCompleted 0)), go 1)]

theorem flush_answers_completes :
    let b := Pool.play (step {}) succeedsCompleted start writesFlush
    let c := (Pool.play (step {}) succeedsCompleted b completesFlush).config
    ∃ s' ts, step {} c.shared (.callback (.complete 0)) .go = some (s', ts) ∧
      s'.trace = c.shared.trace ++ [.answered 0 (.ok ())] ∧
      accepted b.shared.trace = [⟨⟨0, [1]⟩, false⟩] ∧ Completed c.shared.trace 1 ∧
      FlushedSince b.shared.trace 1 c.shared.trace := by
  intro b c
  have hstep : (step {} c.shared (.callback (.complete 0)) .go).map (·.1.trace) =
      some (c.shared.trace ++ [.answered 0 (.ok ())]) := by decide +kernel
  obtain ⟨⟨s', ts⟩, hn, htrace⟩ := Option.map_eq_some_iff.mp hstep
  have hmem : .callback (.complete 0) ∈ c.threads := by decide +kernel
  obtain ⟨rest, hthreads⟩ := Multiset.exists_cons_of_mem hmem
  have hb : Reachable (step {}) (SucceedsCompleted {}) start.config b.config :=
    play_reachable succeedsCompleted_sound writesFlush Reachable.start
  have hc : Reachable (step {}) (SucceedsCompleted {}) b.config c :=
    play_reachable succeedsCompleted_sound completesFlush Reachable.start
  have hw : .stream (.control .flush 0) ∈ b.config.threads := by decide +kernel
  obtain ⟨-, hcompleted, hsince⟩ := (flush_answers hb hw hc hthreads hn).1
    [.answered 0 (.ok ())] htrace (List.mem_singleton_self _)
  refine ⟨s', ts, hn, htrace, by decide +kernel, hcompleted, ?_⟩
  exact hsince.resolve_right fun ⟨_, ht⟩ => by cases ht

/-- `poll_shutdown` is about to put its flush behind the end of the stream. -/
def shutsDownFlush : Schedule := opens ++ [(.stream .idle, .pollShutdown 9 3 :: go 2)]

/-- The end of the stream is written and completed, and the stream succeeds before the write
loop comes to the flush. -/
def succeedsFirst : Schedule :=
  [(.writer .top, go 7 ++ [.result none] ++ go 1),
   (.stream (.control .shutdown 0), go 1),
   (.outside .cronet, [.callback (.writeCompleted 9)]),
   (.callback (.entered (.writeCompleted 9)), go 3),
   (.outside .cronet, [.callback .succeeded]),
   (.callback (.entered .succeeded), go 14)]

/-- **`finish` answers a flush that the native flush was never called for.** -/
theorem flush_uncalled : ∃ b c,
    Reachable (step {}) (SucceedsCompleted {}) start.config b ∧
      .stream (.control .shutdown 0) ∈ b.threads ∧
      Reachable (step {}) (SucceedsCompleted {}) b c ∧
      .answered 0 (.ok ()) ∈ c.shared.trace ∧
      accepted b.shared.trace = [⟨⟨9, []⟩, true⟩] ∧ .flush ∉ c.shared.trace := by
  let b := Pool.play (step {}) succeedsCompleted start shutsDownFlush
  let c := Pool.play (step {}) succeedsCompleted b succeedsFirst
  exact ⟨b.config, c.config, play_reachable succeedsCompleted_sound shutsDownFlush Reachable.start,
    by decide +kernel, play_reachable succeedsCompleted_sound succeedsFirst Reachable.start,
    by decide +kernel, by decide +kernel, by decide +kernel⟩

end

end TokioCronet.Bidirectional
