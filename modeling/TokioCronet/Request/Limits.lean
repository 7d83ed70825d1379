import TokioCronet.Request.Body
import TokioCronet.Request.Cause

/-!
# The limit of the body

`on_read_completed` adds what Cronet reports to `received` before it copies the chunk, and
refuses a report that would take the sum over `max_response_bytes` or out of `usize`. So what
is put into the channel is never more than `received`, and less by the chunk that is on its way
or that found nobody to take it. Once a report is refused nobody asks for another.
-/

namespace TokioCronet.Request

open Pool

variable {cfg : Settings} {s s' : Shared} {t u : Thread} {ch : Choice} {ts : List Thread}
  {rest : Multiset Thread} {c c' : Config Shared Thread}

/-! ## What is counted -/

/-- How far a report has come: on its way to its callback, in the callback, or accepted. -/
inductive Place where
  | waiting
  | entered
  | accepted
  deriving DecidableEq

/-- The report that a thread carries: how many bytes, and what is in the buffer. -/
def Thread.report : Thread → Option (Place × Nat × Option Bytes)
  | .runnable .entered (.readCompleted _ n content) | .callback (.own _ n content)
  | .callback (.account _ n content) => some (.entered, n, content)
  | .runnable _ (.readCompleted _ n content) => some (.waiting, n, content)
  | .callback (.copy _ n content) => some (.accepted, n, content)
  | _ => none

/-- The bytes of a report that are not added to `received` yet. -/
def Thread.unaccounted (t : Thread) : Nat :=
  match t.report with
  | some (.entered, n, _) => n
  | _ => 0

/-- The bytes in `received` that are on their way to the channel. -/
def Thread.onWay : Thread → Nat
  | .callback (.copy _ n _) => n
  | .task (.send _ chunk) => chunk.length
  | _ => 0

/-- The error that a thread is about to record. -/
def Thread.error : Thread → Option Error
  | .control (.unlock _ e) => e
  | .read (.record _ e) | .task (.record _ e) => some e
  | .upload (.lock _ (.error e)) | .upload (.locked _ (.error e)) => some e
  | _ => none

/-- The limit of a `ResponseTooLarge` that a thread is about to record. -/
def Thread.tooLarge (t : Thread) : Option Nat :=
  match t.error with
  | some (.responseTooLarge limit) => some limit
  | _ => none

/-- The callback of a report that is not accepted yet, or is refused as too large. -/
def Thread.Refuses (limit : Nat) (t : Thread) : Prop :=
  0 < t.unaccounted ∨ t.tooLarge = some limit

/-- How many bytes an event reports. -/
def Event.reports : Event → Nat
  | .callbackBegun (.readCompleted _ n _) => n
  | _ => 0

/-- The total that Cronet has reported. -/
def reported (tr : List Event) : Nat := (tr.map Event.reports).sum

/-- The total that was put into the channel. -/
def pushed (tr : List Event) : Nat := ((chunks tr).map List.length).sum

theorem reported_snoc (tr : List Event) (e : Event) :
    reported (tr ++ [e]) = reported tr + e.reports := by
  rw [reported, List.map_append, List.sum_append, List.map_singleton, List.sum_singleton]
  rfl

theorem pushed_snoc (tr : List Event) (e : Event) :
    pushed (tr ++ [e]) = pushed tr + (e.chunk.elim 0 List.length) := by
  rw [pushed, chunks_snoc, List.map_append, List.sum_append]
  cases e.chunk <;> rfl

/-! ## One step -/

/-- Nothing is counted by what happens. -/
def Uncounted (s s' : Shared) : Prop :=
  s'.trace = s.trace ∨ ∃ e : Event, s'.trace = s.trace ++ [e] ∧ e.reports = 0 ∧ e.chunk = none

/-- A report is refused, and why. -/
structure Refusal (cfg : Settings) (s : Shared) (t : Thread) (s' : Shared) (ts : List Thread)
    (n : Nat) (e : Error) : Prop where
  /-- The callback accounts for it. -/
  thread : ∃ b content, t = .callback (.account b n content)
  /-- Nothing else happens. -/
  same : s' = s
  /-- The error is recorded next. -/
  threads : ts = [.read (.record .callback e)]
  /-- It does not fit the buffer, or the limit. -/
  why : cfg.bufferSize < n ∧ e = .invalidReadSize n cfg.bufferSize ∨
    (cfg.usizeMax < n ∨ cfg.usizeMax < s.context.state.received + n ∨
      cfg.maxResponseBytes < s.context.state.received + n) ∧
      e = .responseTooLarge cfg.maxResponseBytes

/-- **What a step does with a report.** -/
inductive Counting (cfg : Settings) (s : Shared) (t : Thread) (ch : Choice) (s' : Shared)
    (ts : List Thread) : Prop where
  | still : Uncounted s s' → s'.context.state.received = s.context.state.received →
      (ts.map Thread.onWay).sum = t.onWay → (ts.map Thread.unaccounted).sum = t.unaccounted →
      (∀ u ∈ ts, ∀ r, u.report = some r → t.report = some r) → Counting cfg s t ch s' ts
  | submits {b : BufferId} {n : Nat} {content : Option Bytes} : t = .outside .cronet →
      ch = .submit (.readCompleted b n content) → s'.trace = s.trace →
      s'.context.state = s.context.state →
      ts = [.outside .cronet, .runnable .queued (.readCompleted b n content)] →
      Counting cfg s t ch s' ts
  | begins {b : BufferId} {n : Nat} {content : Option Bytes} :
      t = .runnable .running (.readCompleted b n content) →
      s'.trace = s.trace ++ [.callbackBegun (.readCompleted b n content)] →
      s'.context.state = s.context.state →
      ts = [.runnable .entered (.readCompleted b n content)] → Counting cfg s t ch s' ts
  | accepts {b : BufferId} {n : Nat} {content : Option Bytes} :
      t = .callback (.account b n content) → n ≤ cfg.bufferSize →
      s.context.state.received + n ≤ cfg.maxResponseBytes →
      s.context.state.received + n ≤ cfg.usizeMax → s'.trace = s.trace →
      s'.context.state.received = s.context.state.received + n →
      ts = [.callback (.copy b n content)] → Counting cfg s t ch s' ts
  | refuses {n : Nat} {e : Error} : Refusal cfg s t s' ts n e → Counting cfg s t ch s' ts
  | spawns {b : BufferId} {n : Nat} {bytes : Bytes} : t = .callback (.copy b n (some bytes)) →
      s'.trace = s.trace → s'.context.state = s.context.state →
      ts = [.task (.send b (bytes.take n)), .callback .leave] → Counting cfg s t ch s' ts
  /-- There are no data, or nobody takes the chunk. -/
  | loses : (∃ b n, n ≠ 0 ∧ t = .callback (.copy b n none)) ∨
      (∃ b chunk, t = .task (.send b chunk) ∧ s.body.receiver = false) → s' = s →
      (ts.all fun u => u.onWay == 0 && u.report.isNone) = true → Counting cfg s t ch s' ts
  | pushes {b : BufferId} {chunk : Bytes} : t = .task (.send b chunk) →
      s'.trace = s.trace ++ [.pushed chunk] → s'.context.state = s.context.state →
      ts = [.control (.lock (.resumeRead b))] → Counting cfg s t ch s' ts

theorem idle_iff : (ts.all fun u => u.onWay == 0 && u.report.isNone) = true ↔
    ∀ u ∈ ts, u.onWay = 0 ∧ u.report = none := by
  rw [List.all_eq_true]
  refine forall₂_congr fun u _ => ?_
  rw [Bool.and_eq_true, beq_iff_eq, Option.isNone_iff_eq_none]

theorem idle_sums (h : (ts.all fun u => u.onWay == 0 && u.report.isNone) = true) :
    (ts.map Thread.onWay).sum = 0 ∧ (ts.map Thread.unaccounted).sum = 0 := by
  rw [idle_iff] at h
  constructor
  · refine List.sum_eq_zero fun k hk => ?_
    obtain ⟨u, hu, rfl⟩ := List.mem_map.mp hk
    exact (h u hu).1
  · refine List.sum_eq_zero fun k hk => ?_
    obtain ⟨u, hu, rfl⟩ := List.mem_map.mp hk
    rw [Thread.unaccounted, (h u hu).2]

/-- A step that carries no report on. -/
theorem Counting.idle (hquiet : Uncounted s s')
    (hreceived : s'.context.state.received = s.context.state.received)
    (honWay : t.onWay = 0) (hunaccounted : t.unaccounted = 0)
    (hts : (ts.all fun u => u.onWay == 0 && u.report.isNone) = true) :
    Counting cfg s t ch s' ts := by
  obtain ⟨hsum, hsum'⟩ := idle_sums hts
  refine .still hquiet hreceived (hsum.trans honWay.symm) (hsum'.trans hunaccounted.symm) ?_
  intro u hu r hr
  rw [(idle_iff.mp hts u hu).2] at hr
  cases hr

/-- A report is handed on as it is. -/
theorem Counting.one (hquiet : Uncounted s s')
    (hreceived : s'.context.state.received = s.context.state.received)
    (honWay : u.onWay = t.onWay) (hreport : u.report = t.report) : Counting cfg s t ch s' [u] := by
  refine .still hquiet hreceived ?_ ?_ ?_
  · rw [List.map_singleton, List.sum_singleton, honWay]
  · rw [List.map_singleton, List.sum_singleton, Thread.unaccounted, Thread.unaccounted, hreport]
  · intro v hv r hr
    rw [List.mem_singleton.mp hv, hreport] at hr
    exact hr

theorem leave_idle (site : Site) :
    (site.leave.all fun u => u.onWay == 0 && u.report.isNone) = true := by
  cases site <;> rfl

theorem after_idle (op : GatedOp) (e : Option Error) :
    ((op.after e).all fun u => u.onWay == 0 && u.report.isNone) = true := by
  fun_cases GatedOp.after op e <;> rfl

theorem forget_received (st : CallbackState) (b : BufferId) :
    (st.forget b).received = st.received := by
  unfold CallbackState.forget
  split <;> rfl

theorem outsideStep_counting {who : Outside} (h : outsideStep s who ch = some (s', ts)) :
    Counting cfg s (.outside who) ch s' ts := by
  revert h
  fun_cases outsideStep s who ch <;> first | exact of_none | apply of_some
  case case1 r _ =>
    cases r with
    | readCompleted b n content => exact .submits rfl rfl rfl rfl rfl
    | _ => exact .idle (.inl rfl) rfl rfl rfl rfl
  all_goals first
    | exact .idle (.inl rfl) rfl rfl rfl rfl
    | exact .idle (.inr ⟨_, rfl, rfl, rfl⟩) rfl rfl rfl rfl

theorem controlStep_counting {p : Control} (h : controlStep s p ch = some (s', ts)) :
    Counting cfg s (.control p) ch s' ts := by
  revert h
  fun_cases controlStep s p ch <;> first | exact of_none | apply of_some
  all_goals first
    | exact .idle (.inl rfl) rfl rfl rfl rfl
    | exact .idle (.inr ⟨_, rfl, rfl, rfl⟩) rfl rfl rfl rfl
    | exact .idle (.inl rfl) rfl rfl rfl (after_idle _ _)

theorem runnableStep_counting {stage : Stage} {r : Runnable}
    (h : runnableStep s stage r ch = some (s', ts)) :
    Counting cfg s (.runnable stage r) ch s' ts := by
  revert h
  fun_cases runnableStep s stage r ch <;> first | exact of_none | apply of_some
  case case1 =>
    refine .one (.inr ⟨_, rfl, rfl, rfl⟩) rfl rfl ?_
    cases r <;> rfl
  case case2 =>
    cases r with
    | readCompleted b n content => exact .begins rfl rfl rfl rfl
    | _ => exact .one (.inr ⟨_, rfl, rfl, rfl⟩) rfl rfl rfl
  case case3 =>
    refine .idle (.inl rfl) rfl rfl ?_ rfl
    cases r <;> rfl
  all_goals
    refine .one (.inl rfl) rfl ?_ ?_
    · cases r <;> rfl
    · cases r <;> rfl

theorem callbackStep_counting {p : Callback} (h : callbackStep cfg s p ch = some (s', ts)) :
    Counting cfg s (.callback p) ch s' ts := by
  revert h
  fun_cases callbackStep cfg s p ch <;> first | exact of_none | apply of_some
  case case12 b n content hsize =>
    exact .refuses ⟨⟨b, content, rfl⟩, rfl, rfl, .inl ⟨hsize, rfl⟩⟩
  case case13 b n content _ hlarge =>
    exact .refuses ⟨⟨b, content, rfl⟩, rfl, rfl, .inr ⟨hlarge, rfl⟩⟩
  case case14 b n content hsize hfits =>
    refine .accepts rfl ?_ ?_ ?_ rfl rfl rfl <;> omega
  case case16 b n hn => exact .loses (.inl ⟨b, n, hn, rfl⟩) rfl rfl
  case case17 => exact .spawns rfl rfl rfl rfl
  all_goals first
    | exact .idle (.inl rfl) rfl rfl rfl rfl
    | exact .one (.inl rfl) rfl rfl rfl
    | exact .idle (.inr ⟨_, rfl, rfl, rfl⟩) rfl rfl rfl rfl

theorem readStep_counting {p : Read} (h : readStep s p ch = some (s', ts)) :
    Counting cfg s (.read p) ch s' ts := by
  revert h
  fun_cases readStep s p ch <;> first | exact of_none | apply of_some
  all_goals first
    | exact .idle (.inl rfl) rfl rfl rfl rfl
    | exact .idle (.inr ⟨_, rfl, rfl, rfl⟩) rfl rfl rfl rfl
    | exact .idle (.inl rfl) (forget_received _ _) rfl rfl (leave_idle _)
    | exact .idle (.inl rfl) (forget_received _ _) rfl rfl rfl
    | exact .idle (.inr ⟨_, rfl, rfl, rfl⟩) rfl rfl rfl (leave_idle _)

theorem taskStep_counting {p : Task} (h : taskStep cfg s p ch = some (s', ts)) :
    Counting cfg s (.task p) ch s' ts := by
  revert h
  fun_cases taskStep cfg s p ch <;> first | exact of_none | apply of_some
  case case6 => exact .pushes rfl rfl rfl rfl
  case case8 b chunk hreceiver =>
    exact .loses (.inr ⟨b, chunk, rfl, Bool.not_eq_true _ ▸ hreceiver⟩) rfl rfl
  all_goals first
    | exact .idle (.inl rfl) rfl rfl rfl rfl
    | exact .idle (.inr ⟨_, rfl, rfl, rfl⟩) rfl rfl rfl rfl
    | exact .idle (.inl (Shared.releaseArc_trace s))
        (congrArg CallbackState.received (Shared.releaseArc_state s)) rfl rfl rfl

theorem cleanupStep_counting {p : Cleanup} (h : cleanupStep s p ch = some (s', ts)) :
    Counting cfg s (.cleanup p) ch s' ts := by
  revert h
  fun_cases cleanupStep s p ch <;> first | exact of_none | apply of_some
  all_goals first
    | exact .idle (.inl rfl) rfl rfl rfl rfl
    | exact .idle (.inr ⟨_, rfl, rfl, rfl⟩) rfl rfl rfl rfl
    | exact .idle (.inl (Shared.releaseArc_trace s))
        (congrArg CallbackState.received (Shared.releaseArc_state s)) rfl rfl rfl

theorem step_counting (h : step cfg s t ch = some (s', ts)) : Counting cfg s t ch s' ts := by
  cases t with
  | outside who => exact outsideStep_counting h
  | control p => exact controlStep_counting h
  | runnable stage r => exact runnableStep_counting h
  | callback p => exact callbackStep_counting h
  | read p => exact readStep_counting h
  | task p => exact taskStep_counting h
  | cleanup p => exact cleanupStep_counting h
  | start p =>
    revert h
    rw [step]
    fun_cases startStep s p ch <;> first | exact of_none | apply of_some
    all_goals first
      | exact .idle (.inl rfl) rfl rfl rfl rfl
      | exact .idle (.inr ⟨_, rfl, rfl, rfl⟩) rfl rfl rfl rfl
  | shutdown p =>
    revert h
    rw [step]
    fun_cases shutdownStep s p ch <;> first | exact of_none | apply of_some
    all_goals
      exact .idle (.inl rfl) rfl rfl rfl rfl
  | terminal p =>
    revert h
    rw [step]
    fun_cases terminalStep s p ch <;> first | exact of_none | apply of_some
    all_goals first
      | exact .idle (.inl rfl) rfl rfl rfl rfl
      | exact .idle (.inr ⟨_, rfl, rfl, rfl⟩) rfl rfl rfl rfl
  | upload p =>
    revert h
    rw [step]
    fun_cases uploadStep cfg s p ch <;> first | exact of_none | apply of_some
    all_goals first
      | exact .idle (.inl rfl) rfl rfl rfl rfl
      | exact .idle (.inr ⟨_, rfl, rfl, rfl⟩) rfl rfl rfl rfl
  | execute p =>
    revert h
    rw [step]
    fun_cases executeStep s p ch <;> first | exact of_none | apply of_some
    all_goals first
      | exact .idle (.inl rfl) rfl rfl rfl rfl

/-! ## Where a refusal comes from -/

theorem tooLarge_none (h : (ts.all fun u => u.tooLarge.isNone) = true) :
    ∀ u ∈ ts, u.tooLarge = none ∨ u.tooLarge = t.tooLarge := by
  intro u hu
  exact .inl (Option.isNone_iff_eq_none.mp (List.all_eq_true.mp h u hu))

theorem leave_tooLarge (site : Site) :
    ∀ u ∈ site.leave, u.tooLarge = none ∨ u.tooLarge = t.tooLarge := by
  cases site <;> exact tooLarge_none rfl

theorem tooLarge_one (h : u.tooLarge = t.tooLarge) :
    ∀ v ∈ [u], v.tooLarge = none ∨ v.tooLarge = t.tooLarge :=
  List.forall_mem_singleton.mpr (.inr h)

theorem after_tooLarge (op : GatedOp) (e : Option Error) :
    ∀ u ∈ op.after e, u.tooLarge = none ∨
      u.tooLarge = (Thread.control (.unlock op e)).tooLarge := by
  fun_cases GatedOp.after op e <;> first
    | exact tooLarge_none rfl
    | exact tooLarge_one rfl

theorem controlStep_tooLarge {p : Control} (h : controlStep s p ch = some (s', ts)) :
    ∀ u ∈ ts, u.tooLarge = none ∨ u.tooLarge = (Thread.control p).tooLarge := by
  revert h
  fun_cases controlStep s p ch <;> first | exact of_none | apply of_some
  case case8 op _ | case9 op _ => cases op <;> exact tooLarge_none rfl
  case case12 who code => cases code <;> exact tooLarge_none rfl
  case case15 op e => exact after_tooLarge op e
  all_goals exact tooLarge_none rfl

theorem uploadStep_tooLarge {p : Upload} (h : uploadStep cfg s p ch = some (s', ts))
    (hsource : ∀ {op x}, p = .poll op → ch = .source (.ready (.error x)) →
      ∃ message, x = .upload message) :
    ∀ u ∈ ts, u.tooLarge = none ∨ u.tooLarge = (Thread.upload p).tooLarge := by
  revert h hsource
  fun_cases uploadStep cfg s p ch <;> first | exact of_none | (apply of_some; intro hsource)
  case case9 op result =>
    refine List.forall_mem_singleton.mpr (.inl ?_)
    cases result with
    | ok value => rfl
    | error x =>
      obtain ⟨message, rfl⟩ := hsource rfl rfl
      rfl
  case case12 op result _ => cases result <;> exact tooLarge_one rfl
  all_goals exact tooLarge_none rfl

/-- **Only a report is refused as too large.** -/
theorem step_tooLarge (h : step cfg s t ch = some (s', ts)) (hsource : SourceContract c t ch)
    (hnot : ∀ b n content, t ≠ .callback (.account b n content)) :
    ∀ u ∈ ts, u.tooLarge = none ∨ u.tooLarge = t.tooLarge := by
  revert h
  cases t <;> simp only [step]
  case outside who =>
    fun_cases outsideStep s who ch <;> first | exact of_none | apply of_some
    all_goals exact tooLarge_none rfl
  case start p =>
    fun_cases startStep s p ch <;> first | exact of_none | (apply of_some; exact tooLarge_none rfl)
  case shutdown p =>
    fun_cases shutdownStep s p ch <;> first | exact of_none | apply of_some
    all_goals exact tooLarge_none rfl
  case control p => exact controlStep_tooLarge
  case runnable stage r =>
    fun_cases runnableStep s stage r ch <;> first | exact of_none | apply of_some
    all_goals first
      | exact tooLarge_none rfl
      | (cases r <;> exact tooLarge_none rfl)
  case callback p =>
    fun_cases callbackStep cfg s p ch <;> first | exact of_none | apply of_some
    all_goals first
      | exact tooLarge_none rfl
      | exact absurd rfl (hnot _ _ _)
  case read p =>
    fun_cases readStep s p ch <;> first | exact of_none | apply of_some
    all_goals first
      | exact tooLarge_none rfl
      | exact leave_tooLarge _
  case terminal p =>
    fun_cases terminalStep s p ch <;> first | exact of_none | apply of_some
    all_goals exact tooLarge_none rfl
  case task p =>
    fun_cases taskStep cfg s p ch <;> first | exact of_none | apply of_some
    all_goals exact tooLarge_none rfl
  case upload p =>
    exact fun h => uploadStep_tooLarge h (fun hp => hsource.upload (congrArg _ hp))
  case cleanup p =>
    fun_cases cleanupStep s p ch <;> first | exact of_none | apply of_some
    all_goals exact tooLarge_none rfl
  case execute p =>
    fun_cases executeStep s p ch <;> first | exact of_none | apply of_some
    all_goals exact tooLarge_none rfl

/-! ## What is received -/

/-- What Cronet reports to be in a buffer is there. -/
def FillsBuffers (cfg : Settings) : Policy Shared Thread Choice := fun _ _ ch =>
  ∀ b n content, ch = .submit (.readCompleted b n (some content)) → n ≤ cfg.bufferSize →
    n ≤ content.length

/-- What is known of a report that a thread carries. -/
structure Known (cfg : Settings) (tr : List Event) (r : Place × Nat × Option Bytes) : Prop where
  /-- The data are as long as they are said to be. -/
  filled : ∀ content, r.2.2 = some content → r.2.1 ≤ cfg.bufferSize → r.2.1 ≤ content.length
  /-- A report that is being handled is in the trace. -/
  begun : r.1 ≠ .waiting → ∃ b, .callbackBegun (.readCompleted b r.2.1 r.2.2) ∈ tr
  /-- An accepted one fits the buffer. -/
  accepted : r.1 = .accepted → r.2.1 ≤ cfg.bufferSize

/-- Some report brings bytes and no data. -/
def Dataless (tr : List Event) : Prop :=
  ∃ b n, n ≠ 0 ∧ .callbackBegun (.readCompleted b n none) ∈ tr

/-- **What `received` counts.** -/
structure CountInv (cfg : Settings) (c : Config Shared Thread) : Prop where
  /-- The reports that the threads carry are known. -/
  known : ∀ t ∈ c.threads, ∀ r, t.report = some r → Known cfg c.shared.trace r
  /-- The count stays within the limit. -/
  limit : c.shared.context.state.received ≤ cfg.maxResponseBytes
  /-- It is a `usize`. -/
  overflow : c.shared.context.state.received ≤ cfg.usizeMax
  /-- What the channel got is counted. -/
  pushed : pushed c.shared.trace + total Thread.onWay c.threads ≤ c.shared.context.state.received
  /-- Only what nobody takes and what there are no data for is lost. -/
  kept : c.shared.body.receiver = true → ¬ Dataless c.shared.trace →
    c.shared.context.state.received = Request.pushed c.shared.trace + total Thread.onWay c.threads

theorem countInv_init : CountInv cfg start.config where
  known := by simp [start, Listed.config, Thread.report]
  limit := Nat.zero_le _
  overflow := Nat.zero_le _
  pushed := Nat.le_refl 0
  kept _ _ := rfl

theorem Known.mono {tr tr' : List Event} {r : Place × Nat × Option Bytes} (h : Known cfg tr r)
    (htrace : tr ⊆ tr') : Known cfg tr' r where
  filled := h.filled
  begun hr := by
    obtain ⟨b, hmem⟩ := h.begun hr
    exact ⟨b, htrace hmem⟩
  accepted := h.accepted

theorem uncounted_totals (h : Uncounted s s') :
    reported s'.trace = reported s.trace ∧ pushed s'.trace = pushed s.trace := by
  rcases h with hsame | ⟨e, hevent, hreports, hchunk⟩
  · rw [hsame]
    exact ⟨rfl, rfl⟩
  · rw [hevent, reported_snoc, pushed_snoc, hreports, hchunk]
    exact ⟨rfl, rfl⟩

/-- What a step leaves known of the reports. -/
theorem known_step (hk : ∀ v ∈ t ::ₘ rest, ∀ r, v.report = some r → Known cfg s.trace r)
    (htrace : s.trace ⊆ s'.trace) (hc : Counting cfg s t ch s' ts)
    (hfills : ∀ b n content, ch = .submit (.readCompleted b n (some content)) →
      n ≤ cfg.bufferSize → n ≤ content.length) :
    ∀ v ∈ (ts : Multiset Thread) + rest, ∀ r, v.report = some r → Known cfg s'.trace r := by
  refine forall_step hk (fun ht => ?_) (fun v _ hv r hr => (hv r hr).mono htrace)
  induction hc with
  | still _ _ _ _ hreports =>
    intro u hu r hr
    exact (ht r (hreports u hu r hr)).mono htrace
  | @submits b n content _ hch _ _ hts =>
    rw [hts]
    intro u hu r hr
    rcases List.mem_pair.mp hu with rfl | rfl
    · cases hr
    · cases hr
      refine ⟨fun bytes hbytes hsize => ?_, fun hr => absurd rfl hr, fun hr => nomatch hr⟩
      exact hfills b n bytes (hch.trans (by rw [show content = some bytes from hbytes])) hsize
  | @begins b n content hthread hevent _ hts =>
    rw [hts]
    refine List.forall_mem_singleton.mpr ?_
    rintro r ⟨⟩
    have hwaiting := ht (.waiting, n, content) (by rw [hthread]; rfl)
    refine ⟨hwaiting.filled, fun _ => ⟨b, ?_⟩, fun hr => nomatch hr⟩
    rw [hevent]
    exact List.mem_append_right _ (List.mem_singleton_self _)
  | @accepts b n content hthread hsize _ _ _ _ hts =>
    rw [hts]
    refine List.forall_mem_singleton.mpr ?_
    rintro r ⟨⟩
    have hentered := (ht (.entered, n, content) (by rw [hthread]; rfl)).mono htrace
    exact ⟨hentered.filled, fun _ => hentered.begun nofun, fun _ => hsize⟩
  | refuses hrefusal =>
    rw [hrefusal.threads]
    exact List.forall_mem_singleton.mpr fun r hr => nomatch hr
  | spawns _ _ _ hts =>
    rw [hts]
    intro u hu r hr
    rcases List.mem_pair.mp hu with rfl | rfl
    · cases hr
    · cases hr
  | loses _ _ hidle =>
    intro u hu r hr
    rw [(idle_iff.mp hidle u hu).2] at hr
    cases hr
  | pushes _ _ _ hts =>
    rw [hts]
    exact List.forall_mem_singleton.mpr fun r hr => nomatch hr

/-- **What is added to `received` is on its way until it is in the channel or lost.** -/
theorem counting_balance (hc : Counting cfg s t ch s' ts)
    (hk : ∀ r, t.report = some r → Known cfg s.trace r) :
    pushed s'.trace + (ts.map Thread.onWay).sum + s.context.state.received =
        pushed s.trace + t.onWay + s'.context.state.received ∨
      s' = s ∧ (ts.map Thread.onWay).sum = 0 ∧ (s.body.receiver = false ∨ Dataless s.trace) := by
  induction hc with
  | still hquiet hreceived honWay =>
    rw [(uncounted_totals hquiet).2, hreceived, honWay]
    exact .inl rfl
  | submits hthread _ htrace hstate hts =>
    rw [hthread, htrace, hstate, hts]
    exact .inl rfl
  | begins hthread hevent hstate hts =>
    rw [hthread, hevent, pushed_snoc, hstate, hts]
    exact .inl rfl
  | @accepts b n content hthread _ _ _ htrace hreceived hts =>
    rw [hthread, htrace, hreceived, hts]
    refine .inl ?_
    show pushed s.trace + (n + 0) + _ = pushed s.trace + 0 + (_ + n)
    omega
  | refuses hrefusal =>
    obtain ⟨b, content, hthread⟩ := hrefusal.thread
    rw [hthread, hrefusal.same, hrefusal.threads]
    exact .inl rfl
  | @spawns b n bytes hthread htrace hstate hts =>
    have hknown := hk (.accepted, n, some bytes) (by rw [hthread]; rfl)
    have hlength : (bytes.take n).length = n :=
      List.length_take_of_le (hknown.filled bytes rfl (hknown.accepted rfl))
    rw [hthread, htrace, hstate, hts]
    refine .inl ?_
    show pushed s.trace + ((bytes.take n).length + 0) + _ = pushed s.trace + n + _
    rw [hlength, Nat.add_zero]
  | loses hwhy hsame hidle =>
    refine .inr ⟨hsame, (idle_sums hidle).1, ?_⟩
    rcases hwhy with ⟨b, n, hne, hthread⟩ | ⟨b, chunk, -, hreceiver⟩
    · obtain ⟨b', hbegun⟩ := (hk (.accepted, n, none) (by rw [hthread]; rfl)).begun nofun
      exact .inr ⟨b', n, hne, hbegun⟩
    · exact .inl hreceiver
  | @pushes b chunk hthread hevent hstate hts =>
    rw [hthread, hevent, pushed_snoc, hstate, hts]
    refine .inl ?_
    show pushed s.trace + chunk.length + 0 + _ = pushed s.trace + chunk.length + _
    omega

/-- Only a report that fits is added. -/
theorem counting_limit (hc : Counting cfg s t ch s' ts) :
    s'.context.state.received = s.context.state.received ∨
      s'.context.state.received ≤ cfg.maxResponseBytes ∧
        s'.context.state.received ≤ cfg.usizeMax := by
  induction hc with
  | still _ hreceived => exact .inl hreceived
  | accepts _ _ hlimit hoverflow _ hreceived =>
    rw [hreceived]
    exact .inr ⟨hlimit, hoverflow⟩
  | submits _ _ _ hstate | begins _ _ hstate | spawns _ _ hstate | pushes _ _ hstate =>
    exact .inl (congrArg CallbackState.received hstate)
  | refuses hrefusal => exact .inl (by rw [hrefusal.same])
  | loses _ hsame => exact .inl (by rw [hsame])

theorem countInv_step (hi : CountInv cfg c) (hs : Step (step cfg) (FillsBuffers cfg) c c') :
    CountInv cfg c' := by
  obtain ⟨hfills, hn⟩ := hs
  rename_i s s' t ts rest ch
  have hmem : t ∈ t ::ₘ rest := Multiset.mem_cons_self t rest
  have hcounting := step_counting hn
  have htrace : s.trace ⊆ s'.trace := (step_frame hn).trace.subset
  have hlimit : s.context.state.received ≤ cfg.maxResponseBytes := hi.limit
  have hoverflow : s.context.state.received ≤ cfg.usizeMax := hi.overflow
  have hpushed : pushed s.trace + total Thread.onWay (t ::ₘ rest) ≤ s.context.state.received :=
    hi.pushed
  have hkept : s'.body.receiver = true → ¬ Dataless s'.trace →
      s.context.state.received = pushed s.trace + total Thread.onWay (t ::ₘ rest) := by
    refine fun hreceiver hdata => hi.kept (step_receiver hn hreceiver) ?_
    rintro ⟨b, n, hne, hbegun⟩
    exact hdata ⟨b, n, hne, htrace hbegun⟩
  have hbalance := counting_balance hcounting (hi.known t hmem)
  rw [total_cons] at hpushed hkept
  refine ⟨known_step hi.known htrace hcounting hfills, ?_, ?_, ?_, fun hreceiver hdata => ?_⟩
  · rcases counting_limit hcounting with hsame | ⟨hle, -⟩
    · exact hsame ▸ hlimit
    · exact hle
  · rcases counting_limit hcounting with hsame | ⟨-, hle⟩
    · exact hsame ▸ hoverflow
    · exact hle
  · show pushed s'.trace + total Thread.onWay ((ts : Multiset Thread) + rest) ≤
      s'.context.state.received
    rw [total_add, total_coe]
    rcases hbalance with hbalance | ⟨rfl, hzero, -⟩ <;> omega
  · have hbefore := hkept hreceiver hdata
    show s'.context.state.received =
      pushed s'.trace + total Thread.onWay ((ts : Multiset Thread) + rest)
    rw [total_add, total_coe]
    rcases hbalance with hbalance | ⟨rfl, -, hdropped | hdataless⟩
    · omega
    · exact absurd (hdropped.symm.trans hreceiver) Bool.false_ne_true
    · exact absurd hdataless hdata

theorem countInv_reachable (h : Reachable (step cfg) (FillsBuffers cfg) start.config c) :
    CountInv cfg c :=
  h.invariant countInv_init fun _ => countInv_step

/-! ## What is refused -/

/-- What is documented of Cronet's reads and of the source of an upload. -/
def LimitContract (cfg : Settings) : Policy Shared Thread Choice := fun c t ch =>
  FillsBuffers cfg c t ch ∧ AnswersReads c t ch ∧ SourceContract c t ch

/-- Nobody has the right to read any more. -/
def Spent (c : Config Shared Thread) : Prop :=
  (!c.shared.native.responded).toNat + c.shared.native.reading.isSome.toNat +
    total Thread.token c.threads ≤ 0

/-- Every report fits the buffer. -/
def Fitting (cfg : Settings) (tr : List Event) : Prop :=
  ∀ b n content, .callbackBegun (.readCompleted b n content) ∈ tr → n ≤ cfg.bufferSize

/-- **What the reports come to.** -/
structure RefusalInv (cfg : Settings) (c : Config Shared Thread) : Prop where
  /-- The reports are counted or on their way, until nobody may read. -/
  total : reported c.shared.trace =
    c.shared.context.state.received + total Thread.unaccounted c.threads ∨ Spent c
  /-- Who refuses as too large has a total over the limit. -/
  refused : ∀ t ∈ c.threads, ∀ limit, t.tooLarge = some limit →
    t = .read (.record .callback (.responseTooLarge cfg.maxResponseBytes)) ∧
      cfg.maxResponseBytes < reported c.shared.trace
  /-- So has who recorded it. -/
  recorded : ∀ limit, .recorded (.responseTooLarge limit) ∈ c.shared.trace →
    cfg.maxResponseBytes < reported c.shared.trace
  /-- A total over the limit is refused. -/
  exceeded : cfg.maxResponseBytes < reported c.shared.trace → Fitting cfg c.shared.trace →
    .recorded (.responseTooLarge cfg.maxResponseBytes) ∈ c.shared.trace ∨
      ∃ t ∈ c.threads, t.Refuses cfg.maxResponseBytes

theorem refusalInv_init : RefusalInv cfg start.config where
  total := .inl rfl
  refused := by simp [start, Listed.config, Thread.tooLarge, Thread.error]
  recorded _ hmem := absurd hmem List.not_mem_nil
  exceeded h := absurd h (Nat.not_lt_zero _)

theorem unaccounted_token (h : u.token = 0) : u.unaccounted = 0 := by
  by_contra hne
  have hbears : u.bears = true := by
    cases u with
    | runnable stage r => cases stage <;> cases r <;> first | rfl | exact absurd rfl hne
    | callback p => cases p <;> first | rfl | exact absurd rfl hne
    | _ => exact absurd rfl hne
  have hone := bears_token hbears
  omega

/-- Who has the right to read carries all that is not accounted for. -/
theorem RefusalInv.alone (hi : RefusalInv cfg ⟨s, t ::ₘ rest⟩)
    (hb : BodyInv ⟨s, t ::ₘ rest⟩) (ht : t.token = 1) :
    reported s.trace = s.context.state.received + t.unaccounted := by
  have hrest : Pool.total Thread.unaccounted rest = 0 :=
    total_eq_zero.mpr fun u hu => unaccounted_token ((hb.alone ht).1 u hu)
  rcases hi.total with htotal | hspent
  · rw [total_cons, hrest] at htotal
    exact htotal
  · have hzero : (!s.native.responded).toNat + s.native.reading.isSome.toNat +
      Pool.total Thread.token (t ::ₘ rest) ≤ 0 := hspent
    rw [total_cons] at hzero
    omega

/-- A report is accounted for unless it is refused. -/
theorem counting_reported (hc : Counting cfg s t ch s' ts) :
    reported s'.trace + s.context.state.received + t.unaccounted =
        reported s.trace + s'.context.state.received + (ts.map Thread.unaccounted).sum ∨
      ∃ n e, Refusal cfg s t s' ts n e := by
  induction hc with
  | still hquiet hreceived _ hunaccounted =>
    rw [(uncounted_totals hquiet).1, hreceived, hunaccounted]
    exact .inl rfl
  | submits hthread _ htrace hstate hts | spawns hthread htrace hstate hts =>
    rw [hthread, htrace, hstate, hts]
    exact .inl rfl
  | @begins b n content hthread hevent hstate hts =>
    rw [hthread, hevent, reported_snoc, hstate, hts]
    refine .inl ?_
    show reported s.trace + n + _ + 0 = reported s.trace + _ + (n + 0)
    omega
  | @accepts b n content hthread _ _ _ htrace hreceived hts =>
    rw [hthread, htrace, hreceived, hts]
    refine .inl ?_
    show reported s.trace + _ + n = reported s.trace + (_ + n) + 0
    omega
  | refuses hrefusal => exact .inr ⟨_, _, hrefusal⟩
  | loses hwhy hsame hidle =>
    rw [hsame, (idle_sums hidle).2]
    rcases hwhy with ⟨b, n, -, hthread⟩ | ⟨b, chunk, hthread, -⟩ <;> rw [hthread] <;> exact .inl rfl
  | pushes hthread hevent hstate hts =>
    rw [hthread, hevent, reported_snoc, hstate, hts]
    exact .inl rfl

/-- What is received was reported before. -/
theorem counting_received (hc : Counting cfg s t ch s' ts) :
    s'.context.state.received ≤ s.context.state.received + t.unaccounted := by
  induction hc with
  | still _ hreceived => exact hreceived ▸ Nat.le_add_right _ _
  | accepts hthread _ _ _ _ hreceived =>
    rw [hthread, hreceived]
    exact Nat.le_refl _
  | submits _ _ _ hstate | begins _ _ hstate | spawns _ _ hstate | pushes _ _ hstate =>
    rw [hstate]
    exact Nat.le_add_right _ _
  | refuses hrefusal =>
    rw [hrefusal.same]
    exact Nat.le_add_right _ _
  | loses _ hsame =>
    rw [hsame]
    exact Nat.le_add_right _ _

/-- A report comes to be accounted for. -/
theorem counting_handed (hc : Counting cfg s t ch s' ts) (hpos : 0 < t.unaccounted) :
    (ts.map Thread.unaccounted).sum = t.unaccounted ∨
      ∃ b n content, t = .callback (.account b n content) := by
  induction hc with
  | still _ _ _ hunaccounted => exact .inl hunaccounted
  | accepts hthread => exact .inr ⟨_, _, _, hthread⟩
  | refuses hrefusal =>
    obtain ⟨b, content, hthread⟩ := hrefusal.thread
    exact .inr ⟨b, _, content, hthread⟩
  | submits hthread | begins hthread | spawns hthread | pushes hthread =>
    rw [hthread] at hpos
    exact absurd hpos (Nat.lt_irrefl 0)
  | loses hwhy =>
    rcases hwhy with ⟨b, n, -, hthread⟩ | ⟨b, chunk, hthread, -⟩
    · rw [hthread] at hpos
      exact absurd hpos (Nat.lt_irrefl 0)
    · rw [hthread] at hpos
      exact absurd hpos (Nat.lt_irrefl 0)

theorem reported_mono {tr tr' : List Event} (h : tr <+: tr') : reported tr ≤ reported tr' := by
  obtain ⟨more, rfl⟩ := h
  rw [reported, reported, List.map_append, List.sum_append]
  omega

/-- A refusal is recorded at once. -/
theorem refusal_goes {e : Error} (h : step cfg s (.read (.record .callback e)) ch = some (s', ts)) :
    s' = s.record e ∧ ts = [.read (.cancel .callback)] := by
  cases ch with
  | go => exact ⟨(Prod.ext_iff.mp (Option.some.inj h)).1.symm,
      (Prod.ext_iff.mp (Option.some.inj h)).2.symm⟩
  | _ => cases h

theorem spent_step (hn : step cfg s t ch = some (s', ts))
    (hresponse : ∀ info, ch = .submit (.responseStarted info) → s.native.responded = false)
    (hread : ∀ b n content, ch = .submit (.readCompleted b n content) →
      s.native.reading = some b) (h : Spent ⟨s, t ::ₘ rest⟩) :
    Spent ⟨s', (ts : Multiset Thread) + rest⟩ :=
  budget_step h (step_budget hn hresponse hread).token

/-- The sum stays what was received and what is not accounted for, or the right to read
goes with the refused report. -/
theorem RefusalInv.total_step (hi : RefusalInv cfg ⟨s, t ::ₘ rest⟩)
    (hb : BodyInv ⟨s, t ::ₘ rest⟩) (hn : step cfg s t ch = some (s', ts))
    (ha : AnswersReads ⟨s, t ::ₘ rest⟩ t ch) :
    reported s'.trace = s'.context.state.received +
      Pool.total Thread.unaccounted ((ts : Multiset Thread) + rest) ∨
        Spent ⟨s', (ts : Multiset Thread) + rest⟩ := by
  rcases hi.total with htotal | hspent
  · rw [total_cons] at htotal
    dsimp only at htotal
    rw [total_add, total_coe]
    rcases counting_reported (step_counting hn) with hreported | ⟨n, e, hrefusal⟩
    · left
      omega
    · right
      obtain ⟨b, content, rfl⟩ := hrefusal.thread
      obtain ⟨hrest, howing⟩ := hb.alone rfl
      rw [Native.Owing, not_or, Bool.not_eq_false, Bool.not_eq_true] at howing
      rw [Spent, hrefusal.same, hrefusal.threads]
      dsimp only
      rw [howing.1, howing.2, total_add, total_eq_zero.mpr hrest]
      exact Nat.le_refl 0
  · exact .inr (spent_step hn ha.1 ha.2 hspent)

/-- What a callback does with a report. -/
theorem account_goes {b : BufferId} {n : Nat} {content : Option Bytes}
    (h : step cfg s (.callback (.account b n content)) ch = some (s', ts)) :
    ts = [.callback (.copy b n content)] ∧ n ≤ cfg.bufferSize ∧
        s.context.state.received + n ≤ cfg.maxResponseBytes ∨
      ∃ e, Refusal cfg s (.callback (.account b n content)) s' ts n e := by
  have hgo : ch = .go := by cases ch <;> first | rfl | cases h
  subst hgo
  rw [step, callbackStep] at h
  split_ifs at h with hsize hlarge
  · cases h
    exact .inr ⟨_, ⟨b, content, rfl⟩, rfl, rfl, .inl ⟨hsize, rfl⟩⟩
  · cases h
    exact .inr ⟨_, ⟨b, content, rfl⟩, rfl, rfl, .inr ⟨hlarge, rfl⟩⟩
  · cases h
    refine .inl ⟨rfl, ?_, ?_⟩ <;> omega

/-- A refusal as too large comes from a report that takes the total over the limit. -/
theorem RefusalInv.refused_step (hi : RefusalInv cfg ⟨s, t ::ₘ rest⟩)
    (hb : BodyInv ⟨s, t ::ₘ rest⟩) (hmax : cfg.maxResponseBytes ≤ cfg.usizeMax)
    (hn : step cfg s t ch = some (s', ts)) (hsource : SourceContract ⟨s, t ::ₘ rest⟩ t ch)
    (hmono : reported s.trace ≤ reported s'.trace) :
    ∀ u ∈ (ts : Multiset Thread) + rest, ∀ limit, u.tooLarge = some limit →
      u = .read (.record .callback (.responseTooLarge cfg.maxResponseBytes)) ∧
        cfg.maxResponseBytes < reported s'.trace := by
  refine forall_step hi.refused (fun ht u hu limit hlimit => ?_) (fun u _ hu limit hlimit => ?_)
  · by_cases haccount : ∃ b n content, t = .callback (.account b n content)
    · obtain ⟨b, n, content, rfl⟩ := haccount
      have halone := hi.alone hb rfl
      rcases account_goes hn with ⟨rfl, -, -⟩ | ⟨e, hrefusal⟩
      · rw [List.mem_singleton.mp hu] at hlimit
        cases hlimit
      · rw [hrefusal.threads] at hu
        obtain rfl := List.mem_singleton.mp hu
        rcases hrefusal.why with ⟨-, rfl⟩ | ⟨hlarge, rfl⟩
        · cases hlimit
        · have hn : (Thread.callback (.account b n content)).unaccounted = n := rfl
          refine ⟨rfl, ?_⟩
          omega
    · rcases step_tooLarge hn hsource (fun b n content h => haccount ⟨b, n, content, h⟩) u hu with
        hnone | hsame
      · rw [hnone] at hlimit
        cases hlimit
      · obtain ⟨rfl, -⟩ := ht limit (hsame.symm.trans hlimit)
        obtain ⟨-, rfl⟩ := refusal_goes hn
        rw [List.mem_singleton.mp hu] at hlimit
        cases hlimit
  · obtain ⟨hthread, hover⟩ := hu limit hlimit
    exact ⟨hthread, Nat.lt_of_lt_of_le hover hmono⟩

/-- A report that takes the total over the limit is on its way to be refused. -/
theorem RefusalInv.exceeded_step (hi : RefusalInv cfg ⟨s, t ::ₘ rest⟩)
    (hb : BodyInv ⟨s, t ::ₘ rest⟩) (hc : CountInv cfg ⟨s, t ::ₘ rest⟩)
    (hn : step cfg s t ch = some (s', ts)) (htrace : s.trace ⊆ s'.trace)
    (hover : cfg.maxResponseBytes < reported s'.trace) (hfits : Fitting cfg s'.trace) :
    .recorded (.responseTooLarge cfg.maxResponseBytes) ∈ s'.trace ∨
      ∃ u ∈ (ts : Multiset Thread) + rest, u.Refuses cfg.maxResponseBytes := by
  have hstill : 0 < (ts.map Thread.unaccounted).sum →
      ∃ u ∈ (ts : Multiset Thread) + rest, u.Refuses cfg.maxResponseBytes := by
    intro hpos
    obtain ⟨k, hk, hne⟩ := List.exists_mem_ne_zero_of_sum_ne_zero (Nat.ne_of_gt hpos)
    obtain ⟨u, hu, rfl⟩ := List.mem_map.mp hk
    exact ⟨u, Multiset.mem_add.mpr (.inl (Multiset.mem_coe.mpr hu)), .inl (Nat.pos_of_ne_zero hne)⟩
  have hbalance := counting_reported (step_counting hn)
  by_cases hbefore : cfg.maxResponseBytes < reported s.trace
  · rcases hi.exceeded hbefore fun b n content hmem => hfits b n content (htrace hmem) with
      hrecorded | ⟨u, hu, hrefuses⟩
    · exact .inl (htrace hrecorded)
    rcases Multiset.mem_cons.mp hu with rfl | hu
    · rcases hrefuses with hpos | hlimit
      · rcases counting_handed (step_counting hn) hpos with hsame | ⟨b, n, content, rfl⟩
        · exact .inr (hstill (hsame ▸ hpos))
        have halone := hi.alone hb rfl
        rcases account_goes hn with ⟨-, -, hlimit⟩ | ⟨e, hrefusal⟩
        · have hn : (Thread.callback (.account b n content)).unaccounted = n := rfl
          omega
        rcases hrefusal.why with ⟨hsize, -⟩ | ⟨-, rfl⟩
        · obtain ⟨b', hbegun⟩ := (hc.known _ hu (.entered, n, content) rfl).begun nofun
          exact absurd (hfits b' n content (htrace hbegun)) (Nat.not_le.mpr hsize)
        · refine .inr ⟨.read (.record .callback (.responseTooLarge cfg.maxResponseBytes)), ?_,
            .inr rfl⟩
          rw [hrefusal.threads]
          exact Multiset.mem_add.mpr (.inl (Multiset.mem_coe.mpr (List.mem_singleton_self _)))
      · obtain ⟨rfl, -⟩ := hi.refused u hu _ hlimit
        obtain ⟨rfl, -⟩ := refusal_goes hn
        exact .inl (List.mem_append_right _ (List.mem_singleton_self _))
    · exact .inr ⟨u, Multiset.mem_add.mpr (.inr hu), hrefuses⟩
  · -- the report begins with this step
    refine .inr (hstill ?_)
    have hreceived := counting_received (step_counting hn)
    rcases hbalance with hbalance | ⟨n, e, hrefusal⟩
    · omega
    · rw [hrefusal.same] at hover
      exact absurd hover hbefore

/-- **One step.** -/
theorem refusalInv_step (hmax : cfg.maxResponseBytes ≤ cfg.usizeMax) (hi : RefusalInv cfg c)
    (hb : BodyInv c) (hc : CountInv cfg c) (hs : Step (step cfg) (LimitContract cfg) c c') :
    RefusalInv cfg c' := by
  obtain ⟨⟨-, ha, hsource⟩, hn⟩ := hs
  rename_i s s' t ts rest ch
  have hmem : t ∈ t ::ₘ rest := Multiset.mem_cons_self t rest
  have hprefix := (step_frame hn).trace
  have hmono := reported_mono hprefix
  refine ⟨hi.total_step hb hn ha, hi.refused_step hb hmax hn hsource hmono, ?_,
    hi.exceeded_step hb hc hn hprefix.subset⟩
  intro limit hrecorded
  refine Nat.lt_of_lt_of_le ?_ hmono
  rcases step_event hn with hsame | ⟨e, hevent, hcause⟩
  · exact hi.recorded limit (hsame ▸ hrecorded)
  · rw [show s'.trace = _ from hevent, List.mem_append, List.mem_singleton] at hrecorded
    rcases hrecorded with hold | rfl
    · exact hi.recorded limit hold
    · rcases hcause with ⟨site, rfl⟩ | ⟨sender, rfl⟩ | ⟨op, rfl⟩ <;>
        exact (hi.refused _ hmem limit rfl).2

theorem refusalInv_reachable (hmax : cfg.maxResponseBytes ≤ cfg.usizeMax)
    (h : Reachable (step cfg) (LimitContract cfg) start.config c) : RefusalInv cfg c := by
  refine h.invariant refusalInv_init fun hr hi hs => refusalInv_step hmax hi ?_ ?_ hs
  · exact bodyInv_reachable (hr.mono fun _ _ _ h => h.2.1)
  · exact countInv_reachable (hr.mono fun _ _ _ h => h.1)

/-! ## After a refusal -/

/-- A chunk that is put into the channel was not too much. -/
theorem not_over_of_send {b : BufferId} {chunk : Bytes}
    (hi : RefusalInv cfg ⟨s, .task (.send b chunk) ::ₘ rest⟩)
    (hb : BodyInv ⟨s, .task (.send b chunk) ::ₘ rest⟩)
    (hc : CountInv cfg ⟨s, .task (.send b chunk) ::ₘ rest⟩) :
    reported s.trace ≤ cfg.maxResponseBytes := by
  rw [hi.alone hb rfl]
  exact hc.limit

/-- **Nothing is put into the channel after the total has gone over the limit.** -/
theorem chunks_kept (hmax : cfg.maxResponseBytes ≤ cfg.usizeMax)
    (hr : Reachable (step cfg) (LimitContract cfg) start.config c)
    (hover : cfg.maxResponseBytes < reported c.shared.trace)
    (h : Reachable (step cfg) (LimitContract cfg) c c') :
    chunks c'.shared.trace = chunks c.shared.trace := by
  suffices chunks c'.shared.trace = chunks c.shared.trace ∧
      Reachable (step cfg) (LimitContract cfg) start.config c' ∧
      cfg.maxResponseBytes < reported c'.shared.trace from this.1
  induction h with
  | refl => exact ⟨rfl, hr, hover⟩
  | tail _ hs ih =>
    obtain ⟨hchunks, hr, hover⟩ := ih
    refine ⟨?_, hr.tail hs, ?_⟩
    · obtain ⟨-, hn⟩ := hs
      rename_i s s' t ts rest ch _
      rcases step_event hn with hsame | ⟨e, hevent, hcause⟩
      · exact (congrArg chunks hsame).trans hchunks
      · refine (congrArg chunks hevent).trans ?_
        rw [chunks_snoc]
        cases e with
        | pushed chunk =>
          obtain ⟨b, rfl⟩ := hcause
          have hle := not_over_of_send (refusalInv_reachable hmax hr)
            (bodyInv_reachable (hr.mono fun _ _ _ h => h.2.1))
            (countInv_reachable (hr.mono fun _ _ _ h => h.1))
          exact absurd hover (Nat.not_lt.mpr hle)
        | _ => exact (List.append_nil _).trans hchunks
    · obtain ⟨-, hn⟩ := hs
      exact Nat.lt_of_lt_of_le hover (reported_mono (step_frame hn).trace)

/-! ## The limit -/

/-- What the channel gets is counted, and the count stays within the limit. -/
structure Accounted (cfg : Settings) (c : Config Shared Thread) : Prop where
  /-- What the channel got is counted. -/
  pushed : pushed c.shared.trace ≤ c.shared.context.state.received
  /-- The count stays within the limit. -/
  limit : c.shared.context.state.received ≤ cfg.maxResponseBytes
  /-- It is a `usize`. -/
  overflow : c.shared.context.state.received ≤ cfg.usizeMax
  /-- With a receiver, and without reports without data, nothing else is counted. -/
  kept : c.shared.body.receiver = true → ¬ Dataless c.shared.trace →
    c.shared.context.state.received = Request.pushed c.shared.trace + total Thread.onWay c.threads

/-- `ResponseTooLarge` stands for a total over the limit, and is the end of the body. -/
structure Enforced (cfg : Settings) (c : Config Shared Thread) : Prop where
  /-- It is recorded just if the total is over the limit. -/
  recorded : Fitting cfg c.shared.trace →
    (∀ t ∈ c.threads, ¬ t.Refuses cfg.maxResponseBytes) →
    (.recorded (.responseTooLarge cfg.maxResponseBytes) ∈ c.shared.trace ↔
      cfg.maxResponseBytes < reported c.shared.trace)
  /-- After that the body gets no chunk. -/
  ended : cfg.maxResponseBytes < reported c.shared.trace →
    ∀ c', Reachable (step cfg) (LimitContract cfg) c c' →
      chunks c'.shared.trace = chunks c.shared.trace

/-- **The body stays within the limit**, whatever Cronet reports; and if a report is the
answer to a read, a total over the limit is refused once and for all. -/
theorem body_limited (hmax : cfg.maxResponseBytes ≤ cfg.usizeMax)
    (h : Reachable (step cfg) (FillsBuffers cfg) start.config c) :
    Accounted cfg c ∧
      (Reachable (step cfg) (LimitContract cfg) start.config c → Enforced cfg c) := by
  have hc := countInv_reachable h
  refine ⟨⟨?_, hc.limit, hc.overflow, hc.kept⟩, fun hr => ⟨fun hfits hdone => ?_, fun hover c' =>
    chunks_kept hmax hr hover⟩⟩
  · exact Nat.le_trans (Nat.le_add_right _ _) hc.pushed
  · have hi := refusalInv_reachable hmax hr
    refine ⟨hi.recorded _, fun hover => ?_⟩
    rcases hi.exceeded hover hfits with hrecorded | ⟨t, ht, hrefuses⟩
    · exact hrecorded
    · exact absurd hrefuses (hdone t ht)

/-- `FillsBuffers` as a test. -/
def fillsBuffers (cfg : Settings) : Choice → Bool
  | .submit (.readCompleted _ n (some content)) => !(n ≤ cfg.bufferSize) || n ≤ content.length
  | _ => true

/-- `SourceContract` as a test. -/
def sourceContract : Choice → Bool
  | .source (.ready (.error (.upload _))) => true
  | .source (.ready (.error _)) => false
  | _ => true

/-- `LimitContract` as a test. -/
def limitContract (cfg : Settings) (c : Listed Shared Thread) (_ : Thread) (ch : Choice) : Bool :=
  fillsBuffers cfg ch && (answersReads c ch && sourceContract ch)

theorem limitContract_sound (cfg : Settings) (c : Listed Shared Thread) (t : Thread) (ch : Choice)
    (h : limitContract cfg c t ch = true) : LimitContract cfg c.config t ch := by
  rw [limitContract, Bool.and_eq_true, Bool.and_eq_true] at h
  obtain ⟨hfills, hreads, hsource⟩ := h
  refine ⟨?_, answersReads_sound c t ch hreads, ?_⟩
  · rintro b n content rfl hsize
    have hboth : (!decide (n ≤ cfg.bufferSize) || decide (n ≤ content.length)) = true := hfills
    rw [decide_eq_true hsize, Bool.not_true, Bool.false_or] at hboth
    exact of_decide_eq_true hboth
  · rintro op x rfl rfl
    cases x with
    | upload message => exact sourceContract_upload c.config rfl op _ rfl rfl
    | _ => cases hsource

/-- One byte is reported, with data or without. -/
def reportsByte (content : Option Bytes) : Schedule :=
  readsFirst ++ [(.read (.returned .callback 0 none), go 4)] ++
  enters (.readCompleted 0 1 content) ++
  [(.runnable .entered (.readCompleted 0 1 content), go 2),
    (.callback (.account 0 1 content), go 3)]

/-- The request then. -/
def byteReported (cfg : Settings) (content : Option Bytes) : Listed Shared Thread :=
  Pool.play (step cfg) (limitContract cfg) start (reportsByte content)

theorem byteReported_reachable (cfg : Settings) (content : Option Bytes) :
    Reachable (step cfg) (LimitContract cfg) start.config (byteReported cfg content).config :=
  play_reachable (limitContract_sound cfg) (reportsByte content) Reachable.start

/-- Nothing is allowed, and one byte is reported. -/
theorem body_limited_byte :
    let cfg : Settings := { maxResponseBytes := 0 }
    let c := (byteReported cfg (some [7])).config
    Accounted cfg c ∧ Enforced cfg c ∧ reported c.shared.trace = 1 ∧
      .recorded (.responseTooLarge 0) ∈ c.shared.trace := by
  have hreach := byteReported_reachable { maxResponseBytes := 0 } (some [7])
  obtain ⟨haccounted, henforced⟩ := body_limited (by decide) (hreach.mono fun _ _ _ h => h.1)
  exact ⟨haccounted, henforced hreach, by decide +kernel, by decide +kernel⟩

/-- **A byte without data is received and never comes into the channel.** -/
theorem received_not_pushed :
    ¬ ∀ c, Reachable (step {}) (LimitContract {}) start.config c →
      (∀ t ∈ c.threads, t.onWay = 0) →
        c.shared.context.state.received = pushed c.shared.trace := by
  intro hall
  have hsame := hall _ (byteReported_reachable {} none) (by decide +kernel)
  revert hsame
  decide +kernel

end TokioCronet.Request
