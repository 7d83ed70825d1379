import TokioCronet.Bidirectional.Reads

/-!
# Letting go of a bidirectional stream

The caller holds the future of `open`, which `CancelOnDrop` guards while it waits for the
stream to be ready, and then the `BidirectionalStream`. `cancel` does nothing before
`started` is set; `open` sets it, and then reads `cancel_requested`, before it waits for the
first time.
-/

namespace TokioCronet.Bidirectional

open Pool

variable {cfg : Settings} {s s' : Shared} {t u : Thread} {ch : Choice} {ts : List Thread}

/-! ## Weights -/

/-- The call of `open` that drops what it made. -/
def Dropper.caller : Dropper → Nat
  | .cleanup => 0
  | .failed _ => 1

/-- Which gated operations are the caller's own: those of `open`, of its guard and of the
adapter. -/
def GatedOp.caller : GatedOp → Nat
  | .cancel .registering | .cancel .started | .cancel (.guard _) | .cancel .adapter => 1
  | _ => 0

/-- The future of `open`, and the stream that comes of it. -/
def Thread.caller : Thread → Nat
  | .openStream (.returned _) => 0
  | .openStream _ | .stream _ => 1
  | .control (.store who) => (GatedOp.cancel who).caller
  | .control (.lock op) | .control (.raw op) | .control (.started op) | .control (.done op)
  | .control (.claim op) | .control (.call op) | .control (.unlock op _) => op.caller
  | .cleanup (.drop why) | .cleanup (.gate why) | .cleanup (.raw why) | .cleanup (.destroy why)
  | .cleanup (.unlock why) | .cleanup (.context why) => why.caller
  | _ => 0

/-- Locks of `BidirectionalControl::gate`. -/
def Thread.gate : Thread → Nat
  | .control (.raw _) | .control (.started _) | .control (.done _) | .control (.claim _)
  | .control (.call _) | .control (.unlock _ _)
  | .cleanup (.raw _) | .cleanup (.destroy _) | .cleanup (.unlock _) => 1
  | _ => 0

/-- Locks of the read state: `start_read` keeps it over its native call, and the callback that
refuses a completion over its whole cancellation. -/
def Thread.reading : Thread → Nat
  | .control (.call (.startRead _)) => 1
  | .callback .unlockRead | .task (.record (.callback true) _) => 1
  | .control (.store who) => (GatedOp.cancel who).guards
  | .control (.lock op) | .control (.raw op) | .control (.started op) | .control (.done op)
  | .control (.claim op) | .control (.call op) | .control (.unlock op _) => op.guards
  | _ => 0

/-- What one step does to the weights. -/
structure Balance (s : Shared) (t : Thread) (s' : Shared) (ts : List Thread) : Prop where
  /-- No step makes a caller of somebody else. -/
  caller : (ts.map Thread.caller).sum ≤ t.caller
  /-- The gate is locked by the one who has it. -/
  gate : t.gate ≤ s.control.gate.toNat →
    s'.control.gate.toNat + t.gate = s.control.gate.toNat + (ts.map Thread.gate).sum
  /-- The read state is locked by the one who has it. -/
  reading : t.reading ≤ s.context.read.lock.toNat →
    s'.context.read.lock.toNat + t.reading =
      s.context.read.lock.toNat + (ts.map Thread.reading).sum

/-- A step that locks and unlocks nothing. -/
theorem Balance.still (hgate : s'.control.gate = s.control.gate)
    (hlock : s'.context.read.lock = s.context.read.lock)
    (hcaller : (ts.map Thread.caller).sum ≤ t.caller) (hheld : (ts.map Thread.gate).sum = t.gate)
    (hreading : (ts.map Thread.reading).sum = t.reading) : Balance s t s' ts := by
  refine ⟨hcaller, fun _ => ?_, fun _ => ?_⟩
  · rw [hgate, hheld]
  · rw [hlock, hreading]

theorem after_caller (op : GatedOp) (e : Option Error) :
    ((op.after e).map Thread.caller).sum = op.caller := by
  fun_cases GatedOp.after op e <;> rfl

theorem after_unlocked (op : GatedOp) (e : Option Error) :
    ((op.after e).map Thread.gate).sum = 0 ∧
      ((op.after e).map Thread.reading).sum = op.guards := by
  fun_cases GatedOp.after op e <;> exact ⟨rfl, rfl⟩

theorem wake_kept (s : Shared) : s.wake.control = s.control ∧
    s.wake.context.read.lock = s.context.read.lock ∧ s.wake.trace = s.trace := by
  unfold Shared.wake
  split <;> exact ⟨rfl, rfl, rfl⟩

theorem releaseArc_kept (s : Shared) : s.releaseArc.control = s.control ∧
    s.releaseArc.context.read.lock = s.context.read.lock ∧ s.releaseArc.trace = s.trace := by
  unfold Shared.releaseArc
  split_ifs <;> exact ⟨rfl, rfl, rfl⟩

theorem controlStep_balance {p : Control} (h : controlStep s p ch = some (s', ts)) :
    Balance s (.control p) s' ts := by
  revert h
  fun_cases controlStep s p ch <;> first | exact of_none | apply of_some
  -- the gate is taken and released
  case case3 op hfree => exact ⟨le_rfl, by simp [Thread.gate, hfree], fun _ => rfl⟩
  case case26 op e =>
    obtain ⟨hgate, hreading⟩ := after_unlocked op e
    refine ⟨(after_caller op e).le, ?_, ?_⟩
    · simp only [hgate, Thread.gate, Bool.toNat_false]
      have hle := s.control.gate.toNat_le
      omega
    · simp [hreading, Thread.reading]
  -- `start_read` locks the read state over its native call
  case case19 sender hfree _ =>
    exact ⟨le_rfl, fun _ => rfl, by simp [Thread.reading, GatedOp.guards, hfree]⟩
  case case24 | case25 =>
    refine ⟨le_rfl, fun _ => rfl, ?_⟩
    simp only [Thread.reading, GatedOp.guards, Bool.toNat_false, List.map_cons, List.map_nil,
      List.sum_cons, List.sum_nil]
    have hle := s.context.read.lock.toNat_le
    omega
  case case16 op hread _ _ =>
    refine .still rfl rfl le_rfl rfl ?_
    cases op with
    | startRead sender => exact (hread sender rfl).elim
    | _ => rfl
  all_goals exact .still rfl rfl le_rfl rfl rfl

theorem step_balance (h : step cfg s t ch = some (s', ts)) : Balance s t s' ts := by
  revert h
  cases t <;> simp only [step]
  case outside who =>
    fun_cases outsideStep s who ch <;> intro h
    case case1 c _ =>
      obtain ⟨native, -, heq⟩ := Option.map_eq_some_iff.mp h
      cases heq
      exact .still rfl rfl le_rfl rfl rfl
    all_goals
      cases h
      try exact .still rfl rfl le_rfl rfl rfl
  case openStream p =>
    fun_cases openStep cfg s p ch <;> first | exact of_none | apply of_some
    all_goals first
      | exact .still rfl rfl le_rfl rfl rfl
      | exact .still rfl rfl (Nat.zero_le _) rfl rfl
  case shutdown p =>
    fun_cases shutdownStep s p ch <;> first | exact of_none | apply of_some
    all_goals exact .still rfl rfl le_rfl rfl rfl
  case control p => exact controlStep_balance
  case callback p =>
    fun_cases callbackStep cfg s p ch <;> first | exact of_none | apply of_some
    case case1 c => cases c <;> exact .still rfl rfl le_rfl rfl rfl
    -- the read state is locked for the error of a refused completion
    case case14 n hfree => exact ⟨le_rfl, fun _ => rfl, by simp [Thread.reading, hfree]⟩
    case case15 =>
      refine ⟨le_rfl, fun _ => rfl, ?_⟩
      simp only [Thread.reading, Bool.toNat_false, List.map_cons, List.map_nil, List.sum_cons,
        List.sum_nil]
      have hle := s.context.read.lock.toNat_le
      omega
    all_goals first
      | exact .still rfl rfl le_rfl rfl rfl
      | exact .still (congrArg _ (wake_kept s).1) (wake_kept s).2.1 le_rfl rfl rfl
  case terminal p =>
    fun_cases terminalStep s p ch <;> first | exact of_none | apply of_some
    all_goals exact .still rfl rfl le_rfl rfl rfl
  case finish p =>
    fun_cases finishStep s p ch <;> first | exact of_none | apply of_some
    case case3 who result => cases who <;> exact .still rfl rfl le_rfl rfl rfl
    all_goals first
      | exact .still rfl rfl le_rfl rfl rfl
      | exact .still (congrArg _ (wake_kept s).1) (wake_kept s).2.1 le_rfl rfl rfl
  case task p =>
    fun_cases taskStep cfg s p ch <;> first | exact of_none | apply of_some
    case case7 reading e => cases reading <;> exact .still rfl rfl le_rfl rfl rfl
    all_goals first
      | exact .still rfl rfl le_rfl rfl rfl
      | exact .still (congrArg _ (releaseArc_kept s).1) (releaseArc_kept s).2.1 le_rfl rfl rfl
  case writer p =>
    fun_cases writerStep s p ch <;> first | exact of_none | apply of_some
    all_goals exact .still rfl rfl le_rfl rfl rfl
  case stream p =>
    fun_cases streamStep cfg s p ch <;> first | exact of_none | apply of_some
    all_goals first
      | exact .still rfl rfl le_rfl rfl rfl
      | exact .still rfl rfl (Nat.zero_le _) rfl rfl
  case cleanup p =>
    fun_cases cleanupStep s p ch <;> first | exact of_none | apply of_some
    case case14 why hfree => exact ⟨le_rfl, by simp [Thread.gate, hfree], fun _ => rfl⟩
    case case17 why =>
      refine ⟨le_rfl, ?_, fun _ => rfl⟩
      simp only [Thread.gate, Bool.toNat_false, List.map_cons, List.map_nil, List.sum_cons,
        List.sum_nil]
      have hle := s.control.gate.toNat_le
      omega
    all_goals first
      | exact .still rfl rfl le_rfl rfl rfl
      | exact .still (congrArg _ (releaseArc_kept s).1) (releaseArc_kept s).2.1 le_rfl rfl rfl

/-! ## What a step leaves alone -/

/-- A cancel has been issued after the native start, or there is no need for one. -/
def Answered (done : Bool) (tr : List Event) : Prop :=
  done = true ∨ Trace.Follows (· = .started) (· = .cancel) tr

/-- The trace grows by events other than the return of the native start. -/
def Grows (tr tr' : List Event) : Prop := ∃ l, tr' = tr ++ l ∧ .started ∉ l

theorem Grows.same (tr : List Event) : Grows tr tr :=
  ⟨[], (List.append_nil tr).symm, List.not_mem_nil⟩

theorem Grows.one {tr : List Event} {e : Event} (he : .started ≠ e) : Grows tr (tr ++ [e]) :=
  ⟨[e], rfl, fun hmem => he (List.mem_singleton.mp hmem)⟩

theorem Grows.answers (tr : List Event) (waiters : List Waiter) (result : Result Unit) :
    Grows tr (tr ++ waiters.map fun waiter => .answered waiter result) := by
  refine ⟨_, rfl, fun hmem => ?_⟩
  obtain ⟨waiter, -, hne⟩ := List.mem_map.mp hmem
  cases hne

theorem Grows.trans {tr tr' tr'' : List Event} (h : Grows tr tr') (h' : Grows tr' tr'') :
    Grows tr tr'' := by
  obtain ⟨l, rfl, hl⟩ := h
  obtain ⟨l', rfl, hl'⟩ := h'
  refine ⟨l ++ l', List.append_assoc _ _ _, fun hmem => ?_⟩
  rcases List.mem_append.mp hmem with hmem | hmem
  · exact hl hmem
  · exact hl' hmem

/-- What nobody takes back, and who clears the pointer. -/
structure Frame (s : Shared) (t : Thread) (s' : Shared) : Prop where
  /-- `done` is not taken back. -/
  done : s.control.done = true → s'.control.done = true
  /-- Neither is `started`. -/
  started : s.control.started = true → s'.control.started = true
  /-- The pointer is set by `open` and cleared before the stream is destroyed. -/
  raw : s'.control.raw = s.control.raw ∨ t = .openStream .new ∧ s'.control.raw = true ∨
    ∃ why, t = .cleanup (.raw why)
  /-- Only the return of the native start says that the stream was started. -/
  trace : t = .openStream .startReturn ∧ s'.trace = s.trace ++ [.started] ∨ Grows s.trace s'.trace

theorem Frame.quiet (hcontrol : s'.control = s.control) (htrace : Grows s.trace s'.trace) :
    Frame s t s' := by
  refine ⟨?_, ?_, .inl ?_, .inr htrace⟩
  · rw [hcontrol]
    exact id
  · rw [hcontrol]
    exact id
  · rw [hcontrol]

theorem step_frame (h : step cfg s t ch = some (s', ts)) : Frame s t s' := by
  have hsame := Grows.same s.trace
  have hone : ∀ {e : Event}, .started ≠ e → Grows s.trace (s.trace ++ [e]) := Grows.one
  revert h
  cases t <;> simp only [step]
  case outside who =>
    fun_cases outsideStep s who ch <;> intro h
    case case1 c _ =>
      obtain ⟨native, -, heq⟩ := Option.map_eq_some_iff.mp h
      cases heq
      exact .quiet rfl (hone (by simp))
    all_goals
      cases h
      try exact .quiet rfl hsame
  case openStream p =>
    fun_cases openStep cfg s p ch <;> first | exact of_none | apply of_some
    all_goals first
      | exact .quiet rfl hsame
      | exact ⟨id, id, .inl rfl, .inl ⟨rfl, rfl⟩⟩
      | exact ⟨id, id, .inr (.inl ⟨rfl, rfl⟩), .inr hsame⟩
      | exact ⟨id, fun _ => rfl, .inl rfl, .inr hsame⟩
      | exact .quiet rfl (hone (by simp))
  case shutdown p =>
    fun_cases shutdownStep s p ch <;> first | exact of_none | apply of_some
    all_goals exact .quiet rfl hsame
  case control p =>
    fun_cases controlStep s p ch <;> first | exact of_none | apply of_some
    all_goals first
      | exact ⟨id, id, .inl rfl, .inr hsame⟩
      | exact ⟨id, id, .inl rfl, .inr (hone (by simp))⟩
  case callback p =>
    fun_cases callbackStep cfg s p ch <;> first | exact of_none | apply of_some
    all_goals first
      | exact .quiet rfl hsame
      | exact .quiet rfl (.answers _ _ _)
      | exact .quiet (wake_kept s).1 ((wake_kept s).2.2 ▸ hsame)
  case terminal p =>
    fun_cases terminalStep s p ch <;> first | exact of_none | apply of_some
    all_goals first
      | exact .quiet rfl hsame
      | exact ⟨fun _ => rfl, id, .inl rfl, .inr (hone (by simp))⟩
  case finish p =>
    fun_cases finishStep s p ch <;> first | exact of_none | apply of_some
    all_goals first
      | exact .quiet rfl hsame
      | exact .quiet rfl ((Grows.answers _ _ _).trans (.one (by simp)))
      | exact .quiet (wake_kept s).1 ((wake_kept s).2.2 ▸ hsame)
  case task p =>
    fun_cases taskStep cfg s p ch <;> first | exact of_none | apply of_some
    all_goals first
      | exact .quiet rfl hsame
      | exact .quiet rfl (hone (by simp))
      | exact .quiet (releaseArc_kept s).1 ((releaseArc_kept s).2.2 ▸ hsame)
  case writer p =>
    fun_cases writerStep s p ch <;> first | exact of_none | apply of_some
    all_goals first
      | exact .quiet rfl hsame
      | exact .quiet rfl (hone (by simp))
  case stream p =>
    fun_cases streamStep cfg s p ch <;> first | exact of_none | apply of_some
    all_goals first
      | exact .quiet rfl hsame
      | exact .quiet rfl (hone (by simp))
  case cleanup p =>
    fun_cases cleanupStep s p ch <;> first | exact of_none | apply of_some
    all_goals first
      | exact ⟨id, id, .inl rfl, .inr hsame⟩
      | exact ⟨id, id, .inr (.inr ⟨_, rfl⟩), .inr hsame⟩
      | exact ⟨id, id, .inl rfl, .inr (hone (by simp))⟩
      | exact .quiet (releaseArc_kept s).1 ((releaseArc_kept s).2.2 ▸ hsame)

/-! ## What a thread may rely on -/

/-- The native start has returned and `cancel` reaches the stream. -/
def Opened (s : Shared) : Prop := .started ∈ s.trace ∧ s.control.started = true

/-- Nothing is left running. -/
def Left (s : Shared) : Prop := .started ∈ s.trace → Answered s.control.done s.trace

/-- What `open` has to keep true where it stands. -/
def Open.Duty (s : Shared) : Open → Prop
  | .load | .admission | .streamEngine | .new => .started ∉ s.trace
  | .registerPush | .registerLoad | .configure | .start | .startReturn =>
    .started ∉ s.trace ∧ s.control.raw = true
  | .storeStarted => .started ∈ s.trace
  | .loadCancel | .spawn | .ready => Opened s
  | .close _ => Left s
  | .returned _ => True

/-- What a gated operation has to keep true for whoever asked for it. -/
def GatedOp.Duty (s : Shared) : GatedOp → Prop
  | .cancel .registering => .started ∉ s.trace
  | .cancel .started | .cancel (.guard _) | .cancel .adapter => Opened s
  | _ => True

/-- What a thread of the control has to keep true where it stands. -/
def Control.Duty (s : Shared) : Control → Prop
  | .store who => (GatedOp.cancel who).Duty s
  | .lock op | .raw op | .started op | .done op | .call op => op.Duty s
  | .claim op => ∃ sender, op = .startRead sender
  | .unlock (.cancel (.guard _)) _ | .unlock (.cancel .adapter) _ => Left s
  | .unlock op _ => op.Duty s

/-- What the adapter has to keep true: it is open, and when it is dropped it leaves nothing
behind. -/
def Stream.Duty (s : Shared) : Stream → Prop
  | .closed => Left s
  | _ => Opened s

/-- Who drops the native stream knows whether it was started. -/
def Dropper.Duty (s : Shared) : Dropper → Prop
  | .cleanup => .started ∈ s.trace
  | .failed _ => .started ∉ s.trace

/-- The cleanup task destroys a stream that is done. -/
def Dropper.Done (s : Shared) : Dropper → Prop
  | .cleanup => s.control.done = true
  | .failed _ => True

/-- What the cleanup has to keep true where it stands. -/
def Cleanup.Duty (s : Shared) : Cleanup → Prop
  | .gate why | .raw why => why.Duty s ∧ why.Done s
  | .drop why | .destroy why | .unlock why | .context why => why.Duty s
  | _ => .started ∈ s.trace

/-- What a thread has to keep true where it stands. -/
def Duty (s : Shared) : Thread → Prop
  | .openStream p => p.Duty s
  | .control p => p.Duty s
  | .stream p => p.Duty s
  | .cleanup p => p.Duty s
  | _ => True

/-- The pointer of a started stream is cleared once it is done. -/
def Cleared (s : Shared) : Prop :=
  .started ∈ s.trace → s.control.raw = true ∨ s.control.done = true

theorem Left.of_unstarted (h : .started ∉ s.trace) : Left s := fun hmem => absurd hmem h

theorem after_duty {op : GatedOp} {e : Option Error} (h : (Control.unlock op e).Duty s) :
    ∀ u ∈ op.after e, Duty s u := by
  revert h
  fun_cases GatedOp.after op e <;> intro h u hu <;>
    simp only [List.not_mem_nil, List.mem_singleton] at hu <;> subst hu <;> exact h

/-- A cancel that makes no native call, or has made it. -/
theorem unlock_duty {op : GatedOp} {e : Option Error} (h : op.Duty s)
    (hleft : Opened s → Left s) : (Control.unlock op e).Duty s := by
  cases op with
  | cancel who => cases who <;> first | exact h | exact hleft h
  | _ => exact h

theorem controlStep_duty {p : Control} (h : controlStep s p ch = some (s', ts))
    (ht : p.Duty s) (hc : Cleared s) : ∀ u ∈ ts, Duty s' u := by
  revert h ht
  fun_cases controlStep s p ch <;> first | exact of_none | (apply of_some; intro ht)
  case case5 | case7 =>
    refine List.forall_mem_singleton.mpr (unlock_duty ht fun hopened _ => ?_)
    rcases hc hopened.1 with hraw | hdone
    · contradiction
    · exact .inl hdone
  case case9 =>
    refine List.forall_mem_singleton.mpr (unlock_duty ht fun hopened => ?_)
    exact absurd hopened.2 ‹_›
  case case15 hdone =>
    exact List.forall_mem_singleton.mpr (unlock_duty ht fun _ _ => .inl hdone)
  case case20 who =>
    -- the native cancel
    refine List.forall_mem_singleton.mpr ?_
    cases who with
    | guard | adapter => exact fun _ => .inr (Trace.follows_of_mem ht.1 rfl rfl)
    | started => exact ⟨List.mem_append_left _ ht.1, ht.2⟩
    | registering =>
      intro hmem
      rcases List.mem_append.mp hmem with hmem | hmem
      · exact ht hmem
      · cases List.mem_singleton.mp hmem
    | _ => trivial
  case case26 => exact after_duty ht
  all_goals first
    | exact List.forall_mem_singleton.mpr trivial
    | exact List.forall_mem_singleton.mpr ht
    | exact List.forall_mem_singleton.mpr ⟨_, rfl⟩

theorem openStep_duty {p : Open} (h : openStep cfg s p ch = some (s', ts))
    (ht : p.Duty s) : ∀ u ∈ ts, Duty s' u := by
  revert h ht
  fun_cases openStep cfg s p ch <;> first | exact of_none | (apply of_some; intro ht)
  all_goals first
    | exact List.forall_mem_singleton.mpr trivial
    | exact List.forall_mem_singleton.mpr ht
    | exact List.forall_mem_singleton.mpr ht.1
    | simp_all [Duty, Open.Duty, Control.Duty, GatedOp.Duty, Cleanup.Duty, Dropper.Duty,
        Stream.Duty, Opened]

theorem streamStep_duty {p : Stream} (h : streamStep cfg s p ch = some (s', ts))
    (ht : p.Duty s) : ∀ u ∈ ts, Duty s' u := by
  have hone : ∀ e : Event, Opened s → Opened { s with trace := s.trace ++ [e] } :=
    fun e hopened => ⟨List.mem_append_left _ hopened.1, hopened.2⟩
  revert h ht
  fun_cases streamStep cfg s p ch <;> first | exact of_none | (apply of_some; intro ht)
  all_goals first
    | exact List.forall_mem_nil _
    | exact List.forall_mem_singleton.mpr ht
    | exact List.forall_mem_singleton.mpr (hone _ ht)
    | exact List.forall_mem_singleton.mpr (fun _ => .inl ‹_›)

theorem cleanupStep_duty {p : Cleanup} (h : cleanupStep s p ch = some (s', ts))
    (ht : p.Duty s) : ∀ u ∈ ts, Duty s' u := by
  revert h ht
  fun_cases cleanupStep s p ch <;> first | exact of_none | (apply of_some; intro ht)
  -- the native stream is destroyed
  case case16 why =>
    have hne : .started ∈ s.trace ++ [.destroy] ↔ .started ∈ s.trace := by simp
    refine List.forall_mem_singleton.mpr ?_
    cases why with
    | cleanup => exact hne.mpr ht
    | failed e => exact fun hmem => ht (hne.mp hmem)
  case case18 => exact List.forall_mem_singleton.mpr trivial
  case case19 e =>
    refine List.forall_mem_singleton.mpr (Left.of_unstarted ?_)
    rw [(releaseArc_kept s).2.2]
    exact ht
  all_goals first
    | exact List.forall_mem_singleton.mpr ht
    | exact List.forall_mem_singleton.mpr ht.1
    | exact List.forall_mem_singleton.mpr trivial
    | exact List.forall_mem_singleton.mpr ⟨ht, trivial⟩
    | exact List.forall_mem_singleton.mpr ⟨ht, ‹_›⟩

/-- **A thread establishes for its successors what they rely on.** -/
theorem step_duty (h : step cfg s t ch = some (s', ts)) (ht : Duty s t) (hc : Cleared s) :
    ∀ u ∈ ts, Duty s' u := by
  revert h
  cases t <;> simp only [step]
  case openStream p => exact fun h => openStep_duty h ht
  case control p => exact fun h => controlStep_duty h ht hc
  case stream p => exact fun h => streamStep_duty h ht
  case cleanup p => exact fun h => cleanupStep_duty h ht
  case outside who =>
    fun_cases outsideStep s who ch <;> intro h
    case case1 c _ =>
      obtain ⟨native, -, heq⟩ := Option.map_eq_some_iff.mp h
      cases heq
      simp [Duty]
    all_goals cases h <;> simp [Duty, Control.Duty, GatedOp.Duty]
  case shutdown p =>
    fun_cases shutdownStep s p ch <;> first | exact of_none | apply of_some
    all_goals
      simp [Duty, Control.Duty, GatedOp.Duty]
  case callback p =>
    fun_cases callbackStep cfg s p ch <;> first | exact of_none | apply of_some
    case case1 c => cases c <;> simp [Duty, Callback.body]
    all_goals simp [Duty, Control.Duty, GatedOp.Duty]
  case terminal p =>
    fun_cases terminalStep s p ch <;> first | exact of_none | (apply of_some; simp [Duty])
  case finish p =>
    fun_cases finishStep s p ch <;> first | exact of_none | apply of_some
    case case3 who result =>
      cases who <;> simp [Finisher.after, Duty, Control.Duty, GatedOp.Duty]
    all_goals simp [Duty]
  case task p =>
    fun_cases taskStep cfg s p ch <;> first | exact of_none | apply of_some
    all_goals
      simp [Duty, Control.Duty, GatedOp.Duty]
  case writer p =>
    fun_cases writerStep s p ch <;> first | exact of_none | apply of_some
    all_goals
      simp [Duty, Control.Duty, GatedOp.Duty]

/-- What the others leave of what `u`, the caller's own thread, relies on. -/
structure Undisturbed (s s' : Shared) : Prop where
  /-- Whether the native start has succeeded. -/
  started : .started ∈ s'.trace ↔ .started ∈ s.trace
  /-- The pointer of a stream that was not started. -/
  raw : .started ∉ s.trace → s.control.raw = true → s'.control.raw = true
  /-- That the stream was opened. -/
  opened : Opened s → Opened s'
  /-- That it was left as it should be. -/
  left : Left s → Left s'

theorem Frame.started_mem (hf : Frame s t s') (h : .started ∈ s.trace) : .started ∈ s'.trace := by
  rcases hf.trace with ⟨-, heq⟩ | ⟨l, heq, -⟩
  · rw [heq]
    exact List.mem_append_left _ h
  · rw [heq]
    exact List.mem_append_left _ h

theorem Frame.opened (hf : Frame s t s') (h : Opened s) : Opened s' :=
  ⟨hf.started_mem h.1, hf.started h.2⟩

theorem Frame.undisturbed (hf : Frame s t s') (hcaller : t.caller = 0) (ht : Duty s t) :
    Undisturbed s s' := by
  obtain ⟨l, heq, hl⟩ : Grows s.trace s'.trace := by
    rcases hf.trace with ⟨rfl, -⟩ | hgrows
    · cases hcaller
    · exact hgrows
  have hstarted : .started ∈ s'.trace ↔ .started ∈ s.trace := by
    rw [heq, List.mem_append, or_iff_left hl]
  refine ⟨hstarted, ?_, hf.opened, ?_⟩
  · intro hnot hraw
    rcases hf.raw with hkept | ⟨-, hset⟩ | ⟨why, rfl⟩
    · exact hkept.trans hraw
    · exact hset
    · -- the cleanup task of a stream that was not started is the caller's own
      cases why with
      | cleanup => exact absurd ht.1 hnot
      | failed e => cases hcaller
  · intro hleft hmem
    rcases hleft (hstarted.mp hmem) with hdone | hfollows
    · exact .inl (hf.done hdone)
    · rw [heq]
      exact .inr (hfollows.append l)

theorem Undisturbed.unstarted (h : Undisturbed s s') (hnot : .started ∉ s.trace) :
    .started ∉ s'.trace := fun hmem => hnot (h.started.mp hmem)

theorem Open.Duty.other {p : Open} (h : Thread.caller (.openStream p) = 1 → Undisturbed s s')
    (hp : p.Duty s) : p.Duty s' := by
  cases p with
  | load | admission | streamEngine | new => exact (h rfl).unstarted hp
  | registerPush | registerLoad | configure | start | startReturn =>
    exact ⟨(h rfl).unstarted hp.1, (h rfl).raw hp.1 hp.2⟩
  | storeStarted => exact (h rfl).started.mpr hp
  | loadCancel | spawn | ready => exact (h rfl).opened hp
  | close e => exact (h rfl).left hp
  | returned r => trivial

theorem GatedOp.Duty.other {op : GatedOp} (h : op.caller = 1 → Undisturbed s s')
    (hop : op.Duty s) : op.Duty s' := by
  cases op with
  | cancel who =>
    cases who with
    | registering => exact (h rfl).unstarted hop
    | started | guard | adapter => exact (h rfl).opened hop
    | _ => trivial
  | _ => trivial

theorem Control.Duty.other {p : Control} (h : Thread.caller (.control p) = 1 → Undisturbed s s')
    (hp : p.Duty s) : p.Duty s' := by
  cases p with
  | store who => exact GatedOp.Duty.other h hp
  | lock op | raw op | started op | done op | call op => exact GatedOp.Duty.other h hp
  | claim op => exact hp
  | unlock op e =>
    cases op with
    | cancel who =>
      cases who with
      | guard | adapter => exact (h rfl).left hp
      | registering => exact (h rfl).unstarted hp
      | started => exact (h rfl).opened hp
      | _ => trivial
    | _ => trivial

theorem Dropper.Duty.other {why : Dropper} (hf : Frame s t s')
    (h : why.caller = 1 → Undisturbed s s') (hwhy : why.Duty s) : why.Duty s' := by
  cases why with
  | cleanup => exact hf.started_mem hwhy
  | failed e => exact (h rfl).unstarted hwhy

theorem Dropper.Done.other {why : Dropper} (hf : Frame s t s') (hwhy : why.Done s) :
    why.Done s' := by
  cases why with
  | cleanup => exact hf.done hwhy
  | failed e => trivial

/-- **What a thread relies on survives the steps of the others.** -/
theorem duty_other (hf : Frame s t s') (hcaller : t.caller + u.caller ≤ 1) (ht : Duty s t)
    (hu : Duty s u) : Duty s' u := by
  have hundisturbed : u.caller = 1 → Undisturbed s s' := by
    intro hone
    exact hf.undisturbed (by omega) ht
  cases u with
  | openStream p => exact Open.Duty.other hundisturbed hu
  | control p => exact Control.Duty.other hundisturbed hu
  | stream p =>
    cases p with
    | closed => exact (hundisturbed rfl).left hu
    | _ => exact hf.opened hu
  | cleanup p =>
    cases p with
    | drop why | destroy why | unlock why | context why =>
      exact Dropper.Duty.other hf hundisturbed hu
    | gate why | raw why => exact ⟨Dropper.Duty.other hf hundisturbed hu.1, hu.2.other hf⟩
    | _ => exact hf.started_mem hu
  | _ => trivial

theorem step_cleared (h : step cfg s t ch = some (s', ts)) (ht : Duty s t) (hc : Cleared s) :
    Cleared s' := by
  have hf := step_frame h
  intro hstarted
  rcases hf.trace with ⟨rfl, -⟩ | ⟨l, heq, hl⟩
  · -- the pointer is set at the start
    rcases hf.raw with hkept | ⟨hnew, -⟩ | ⟨why, hraw⟩
    · exact .inl (hkept.trans ht.2)
    · cases hnew
    · cases hraw
  · rw [heq, List.mem_append, or_iff_left hl] at hstarted
    rcases hf.raw with hkept | ⟨-, hset⟩ | ⟨why, rfl⟩
    · rcases hc hstarted with hraw | hdone
      · exact .inl (hkept.trans hraw)
      · exact .inr (hf.done hdone)
    · exact .inl hset
    · cases why with
      | cleanup => exact .inr (hf.done ht.2)
      | failed e => exact absurd hstarted ht.1

/-- The caller is gone only from a stream that was not started, is done, or was cancelled after
its start. -/
theorem step_leaves (h : step cfg s t ch = some (s', ts)) (ht : t.caller ≠ 0)
    (hts : ∀ u ∈ ts, u.caller = 0) (hduty : Duty s t) : Left s' := by
  have hkept : ∀ u ∈ ts, u.caller ≠ t.caller := by
    intro u hu heq
    exact ht (heq.symm.trans (hts u hu))
  clear hts
  revert h hduty hkept
  cases t <;> simp only [step]
  case openStream p =>
    fun_cases openStep cfg s p ch <;> first | exact of_none | apply of_some
    all_goals
      intro hduty hkept
      first
        | exact Left.of_unstarted hduty
        | exact hduty
        | exact (hkept _ (List.mem_singleton_self _) rfl).elim
        | exact (hkept _ (.tail _ (.head _)) rfl).elim
        | exact (hkept _ (.tail _ (.tail _ (.head _))) rfl).elim
  case control p =>
    fun_cases controlStep s p ch <;> first | exact of_none | (apply of_some; intro hduty hkept)
    case case26 op e =>
      revert hkept ht
      fun_cases GatedOp.after op e <;> intro ht hkept <;> first
        | exact (ht rfl).elim
        | exact (hkept _ (List.mem_singleton_self _) rfl).elim
    all_goals first
      | exact (ht rfl).elim
      | exact (hkept _ (List.mem_singleton_self _) rfl).elim
  case stream p =>
    fun_cases streamStep cfg s p ch <;> first | exact of_none | apply of_some
    all_goals
      intro hduty hkept
      first
        | exact hduty
        | exact (hkept _ (List.mem_singleton_self _) rfl).elim
  case cleanup p =>
    fun_cases cleanupStep s p ch <;> first | exact of_none | apply of_some
    all_goals
      intro hduty hkept
      first
        | exact (ht rfl).elim
        | exact (hkept _ (List.mem_singleton_self _) rfl).elim
  all_goals exact (ht rfl).elim

/-! ## The invariant -/

variable {allowed : Policy Shared Thread Choice} {c c' : Config Shared Thread}

/-- What is known while a stream is let go of. -/
structure AbandonInv (c : Config Shared Thread) : Prop where
  /-- There is one caller. -/
  caller : total Thread.caller c.threads ≤ 1
  /-- The gate is locked by the one who has it. -/
  gate : c.shared.control.gate.toNat = total Thread.gate c.threads
  /-- The read state is locked by the one who has it. -/
  reading : c.shared.context.read.lock.toNat = total Thread.reading c.threads
  /-- Every thread keeps to its duty. -/
  duty : ∀ t ∈ c.threads, Duty c.shared t
  /-- A pointer that is cleared was given up in order. -/
  cleared : Cleared c.shared
  /-- Without a caller the stream was left as it should be. -/
  left : total Thread.caller c.threads = 0 → Left c.shared

theorem abandonInv_init : AbandonInv start.config where
  caller := by simp [start, Listed.config, Thread.caller]
  gate := by simp [start, Listed.config, Thread.gate]
  reading := by simp [start, Listed.config, Thread.reading]
  duty := by simp [start, Listed.config, Duty, Open.Duty]
  cleared := by simp [start, Listed.config, Cleared]
  left := by simp [start, Listed.config, Thread.caller]

theorem abandonInv_step (hi : AbandonInv c) (hs : Step (step cfg) allowed c c') :
    AbandonInv c' := by
  obtain ⟨_, hn⟩ := hs
  rename_i s s' t ts rest ch _
  have hmem : t ∈ t ::ₘ rest := Multiset.mem_cons_self t rest
  have hduty := hi.duty t hmem
  have hframe := step_frame hn
  have hbalance := step_balance hn
  refine ⟨passed_step hi.caller hbalance.caller, ledger_step hi.gate hbalance.gate,
    ledger_step hi.reading hbalance.reading, ?_, step_cleared hn hduty hi.cleared, ?_⟩
  · refine forall_step hi.duty (fun _ => step_duty hn hduty hi.cleared) ?_
    intro u hu hdutyu
    exact duty_other hframe ((add_le_total hu).trans hi.caller) hduty hdutyu
  · intro hzero
    by_cases ht : t.caller = 0
    · have hbefore : total Thread.caller (t ::ₘ rest) = 0 := by
        rw [total_add] at hzero
        rw [total_cons]
        omega
      exact (hframe.undisturbed ht hduty).left (hi.left hbefore)
    · refine step_leaves hn ht ?_ hduty
      intro u hu
      exact total_eq_zero.mp hzero u (Multiset.mem_add.mpr (.inl (Multiset.mem_coe.mpr hu)))

theorem abandonInv_reachable (h : Reachable (step cfg) allowed start.config c) :
    AbandonInv c := by
  induction h with
  | refl => exact abandonInv_init
  | tail hr hs ih => exact abandonInv_step ih hs

/-- **An abandoned stream is not left running.** -/
theorem abandoned_answered (h : Reachable (step cfg) allowed start.config c)
    (hleft : ∀ t ∈ c.threads, t.caller = 0) : Left c.shared :=
  (abandonInv_reachable h).left (total_eq_zero.mpr hleft)

/-! ## The drop goes on -/

/-- The drop of what the caller holds has begun. -/
def Thread.drops : Thread → Bool
  | .openStream (.close _) | .stream .drop | .stream .closed
  | .control (.store (.guard _)) | .control (.store .adapter)
  | .control (.lock (.cancel (.guard _))) | .control (.lock (.cancel .adapter))
  | .control (.raw (.cancel (.guard _))) | .control (.raw (.cancel .adapter))
  | .control (.started (.cancel (.guard _))) | .control (.started (.cancel .adapter))
  | .control (.done (.cancel (.guard _))) | .control (.done (.cancel .adapter))
  | .control (.call (.cancel (.guard _))) | .control (.call (.cancel .adapter))
  | .control (.unlock (.cancel (.guard _)) _) | .control (.unlock (.cancel .adapter) _) => true
  | _ => false

/-- Whoever has the gate can go on, unless it has the right to read and waits for the lock of
the read state. -/
theorem gate_goes (h : t.gate ≠ 0) (ht : Duty s t)
    (hlock : s.context.read.lock = true → t.token ≠ 0 → t.reading ≠ 0) :
    ∃ ch, step cfg s t ch ≠ none := by
  cases t with
  | control p =>
    cases p with
    | raw op =>
      refine ⟨.go, ?_⟩
      cases op <;> simp only [step, controlStep] <;> split_ifs <;> exact Option.some_ne_none _
    | started op =>
      refine ⟨.go, ?_⟩
      simp only [step, controlStep]
      split_ifs <;> exact Option.some_ne_none _
    | done op =>
      refine ⟨.go, ?_⟩
      cases op <;> simp only [step, controlStep] <;> split_ifs <;> exact Option.some_ne_none _
    | claim op =>
      obtain ⟨sender, rfl⟩ := ht
      have hfree : s.context.read.lock = false := by
        by_contra hlocked
        exact hlock (Bool.not_eq_false _ ▸ hlocked) Nat.one_ne_zero rfl
      refine ⟨.go, ?_⟩
      simp only [step, controlStep, hfree, Bool.false_eq_true, if_false]
      split_ifs <;> exact Option.some_ne_none _
    | call op =>
      cases op with
      | cancel who => exact ⟨.go, Option.some_ne_none _⟩
      | flush waiter => exact ⟨.go, Option.some_ne_none _⟩
      | write data eos => exact ⟨.result none, Option.some_ne_none _⟩
      | startRead sender => exact ⟨.result none, Option.some_ne_none _⟩
    | unlock op e => exact ⟨.go, Option.some_ne_none _⟩
    | _ => cases h rfl
  | cleanup p =>
    cases p with
    | raw why | destroy why | unlock why => exact ⟨.go, Option.some_ne_none _⟩
    | _ => cases h rfl
  | _ => cases h rfl

theorem exists_of_total {w : Thread → Nat} {n : Bool} {m : Multiset Thread}
    (h : n.toNat = total w m) (hn : n = true) : ∃ u ∈ m, w u ≠ 0 := by
  refine exists_of_total_ne ?_
  rw [← h, hn]
  exact Nat.one_ne_zero

/-- Whoever has the read state locked has the right to read, or has refused a completion. -/
theorem reading_token (t : Thread) : t.reading ≤ t.token := by
  fun_cases Thread.reading t <;> first
    | exact Nat.le_refl _
    | exact Nat.le_add_right _ _
    | exact Nat.zero_le _

/-- **Whoever waits for the gate waits for somebody who can go on**, of a native stream that
completes each read once: then the thread that has the gate and wants the read state does not
meet a callback that has the read state and wants the gate. -/
theorem locked_goes (h : Reachable (step cfg) ReadsOnce start.config c)
    (hlocked : c.shared.control.gate = true) :
    ∃ u ∈ c.threads, u.gate ≠ 0 ∧ ∃ ch, step cfg c.shared u ch ≠ none := by
  have hi := abandonInv_reachable h
  obtain ⟨u, hu, hheld⟩ := exists_of_total hi.gate hlocked
  refine ⟨u, hu, hheld, gate_goes hheld (hi.duty u hu) fun hlock htoken => ?_⟩
  obtain ⟨v, hv, hreading⟩ := exists_of_total hi.reading hlock
  by_contra hnone
  have hne : u ≠ v := by
    rintro rfl
    exact hreading hnone
  have hle := (add_le_total_of_ne (w := Thread.token) hv hu hne).trans (turn_reachable h).token_le
  have hright := reading_token v
  omega

/-- **A drop is never stuck**, of a native stream that completes each read once: it can go on,
or a thread that has the gate can. -/
theorem drop_goes (h : Reachable (step cfg) ReadsOnce start.config c) (ht : t ∈ c.threads)
    (hdrops : t.drops = true) :
    ∃ u ∈ c.threads, (u = t ∨ u.gate ≠ 0) ∧ ∃ ch, step cfg c.shared u ch ≠ none := by
  by_cases hlocked : c.shared.control.gate = true
  · obtain ⟨u, hu, hgate, hgoes⟩ := locked_goes h hlocked
    exact ⟨u, hu, .inr hgate, hgoes⟩
  · have hfree : t.gate = 0 := by
      have hle := le_total (w := Thread.gate) ht
      rw [← (abandonInv_reachable h).gate, Bool.eq_false_iff.mpr hlocked] at hle
      exact Nat.le_zero.mp hle
    refine ⟨t, ht, .inl rfl, .go, ?_⟩
    cases t with
    | control p =>
      cases p with
      | store who => exact Option.some_ne_none _
      | lock op => simp [step, controlStep, hlocked]
      | claim op => cases hdrops
      | _ => cases hfree
    | openStream p =>
      cases p with
      | close e => cases e <;> exact Option.some_ne_none _
      | _ => cases hdrops
    | stream p =>
      cases p with
      | drop =>
        simp only [step, streamStep]
        split_ifs <;> exact Option.some_ne_none _
      | closed => exact Option.some_ne_none _
      | _ => cases hdrops
    | _ => cases hdrops

end TokioCronet.Bidirectional
