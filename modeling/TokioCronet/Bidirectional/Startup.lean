import TokioCronet.Bidirectional.Lifetime

/-!
# Opening against a shutdown

`Engine::shutdown` cancels every stream it finds registered; `open` may be anywhere
between `begin_operation` and the wait for the stream to be ready. `closing` is read again
inside `register`; a cancel that comes before `started` is set does nothing, and is
remembered in `cancel_requested`, which `open` reads once it has set `started`.
-/

namespace TokioCronet.Bidirectional

open Pool

variable {cfg : Settings} {s s' : Shared} {t u : Thread} {ch : Choice} {ts : List Thread}

/-! ## Annotations -/

/-- `open` has not read `cancel_requested`. -/
def Unread (s : Shared) : Prop := ∀ requested, .cancelRead requested ∉ s.trace

/-- The native start was not called. -/
def Unstarted (s : Shared) : Prop := .start ∉ s.trace ∧ Unread s

/-- `open` gives up before it has started anything. -/
def Failed (s : Shared) (e : Error) : Prop :=
  .started ∉ s.trace ∧ (e = .engineShutdown → .start ∉ s.trace)

/-- `open` has returned from the native start and read `cancel_requested`. -/
def Begun (s : Shared) : Prop :=
  .started ∈ s.trace ∧ (.cancelRead false ∈ s.trace ∨ Answered s.control.done s.trace)

/-- The cancel of a shutdown is done with this stream. -/
def Settled (s : Shared) : Prop :=
  (s.engine.closing = true ∧ s.control.cancelRequested = true) ∧
  (.cancelRead false ∈ s.trace → Answered s.control.done s.trace)

/-- What `open` knows where it stands. -/
def Open.Stands (s : Shared) : Open → Prop
  | .load | .admission | .streamEngine | .new | .registerPush => Unstarted s
  | .registerLoad | .configure | .start => Unstarted s ∧ s.engine.registered = true
  | .startReturn => .start ∈ s.trace ∧ Unread s
  | .storeStarted | .loadCancel => Unread s
  | .spawn | .ready | .close none | .returned (.ok _) => Begun s
  | .close (some e) | .returned (.error e) => Failed s e ∨ Begun s

/-- What a canceller knows. -/
def Canceler.Stands (s : Shared) : Canceler → Prop
  | .registering => Unstarted s
  | .guard _ => Begun s
  | .shutdown => s.engine.closing = true ∧ s.control.cancelRequested = true
  | _ => True

/-- What a gated operation knows. -/
def GatedOp.Stands (s : Shared) : GatedOp → Prop
  | .cancel who => who.Stands s
  | _ => True

/-- What a thread of the control knows where it stands. -/
def Control.Stands (s : Shared) : Control → Prop
  | .store .shutdown => s.engine.closing = true
  | .store who => who.Stands s
  | .lock op | .raw op | .started op | .done op | .claim op | .call op => op.Stands s
  | .unlock (.cancel .started) _ => Begun s
  | .unlock (.cancel .shutdown) _ => Settled s
  | .unlock op _ => op.Stands s

/-- Who drops the native stream knows why. -/
def Dropper.Stands (s : Shared) : Dropper → Prop
  | .cleanup => True
  | .failed e => Failed s e

/-- What the cleanup knows where it stands. -/
def Cleanup.Stands (s : Shared) : Cleanup → Prop
  | .drop why | .gate why | .raw why | .destroy why | .unlock why | .context why => why.Stands s
  | _ => True

/-- What a thread on its way through `open` or a shutdown may rely on. -/
def Stands (s : Shared) : Thread → Prop
  | .openStream p => p.Stands s
  | .shutdown .snapshot => s.engine.closing = true
  | .control p => p.Stands s
  | .cleanup p => p.Stands s
  | _ => True

/-! ## Weights -/

/-- The call of `open` that drops what it made. -/
def Dropper.opener : Dropper → Nat
  | .cleanup => 0
  | .failed _ => 1

/-- Which gated operations belong to the call of `open`. -/
def GatedOp.opener : GatedOp → Nat
  | .cancel .registering | .cancel .started | .cancel (.guard _) => 1
  | _ => 0

/-- The call of `open`, wherever it is. -/
def Thread.opener : Thread → Nat
  | .openStream _ => 1
  | .control (.store who) => (GatedOp.cancel who).opener
  | .control (.lock op) | .control (.raw op) | .control (.started op) | .control (.done op)
  | .control (.claim op) | .control (.call op) | .control (.unlock op _) => op.opener
  | .cleanup (.drop why) | .cleanup (.gate why) | .cleanup (.raw why) | .cleanup (.destroy why)
  | .cleanup (.unlock why) | .cleanup (.context why) => why.opener
  | _ => 0

/-- Which gated operations report what became of the start. -/
def GatedOp.reporting : GatedOp → Nat
  | .cancel .registering | .cancel .started => 1
  | _ => 0

/-- `open`, until it has read `cancel_requested` and has done what follows. -/
def Thread.reporting : Thread → Nat
  | .openStream .spawn | .openStream .ready | .openStream (.close _)
  | .openStream (.returned _) => 0
  | .openStream _ => 1
  | .control (.store who) => (GatedOp.cancel who).reporting
  | .control (.lock op) | .control (.raw op) | .control (.started op) | .control (.done op)
  | .control (.claim op) | .control (.call op) | .control (.unlock op _) => op.reporting
  | .cleanup (.drop why) | .cleanup (.gate why) | .cleanup (.raw why) | .cleanup (.destroy why)
  | .cleanup (.unlock why) | .cleanup (.context why) => why.opener
  | _ => 0

/-- Past `register`, with the native start to come. -/
def Thread.ready : Thread → Nat
  | .openStream .configure | .openStream .start => 1
  | _ => 0

theorem after_opener (op : GatedOp) (e : Option Error) :
    ((op.after e).map Thread.opener).sum = op.opener := by
  fun_cases GatedOp.after op e <;> rfl

theorem after_ready (op : GatedOp) (e : Option Error) :
    ((op.after e).map Thread.ready).sum = 0 := by
  fun_cases GatedOp.after op e <;> rfl

theorem done_mem_after {op : GatedOp} {e : Option Error} (h : .shutdown .done ∈ op.after e) :
    op = .cancel .shutdown := by
  revert h
  fun_cases GatedOp.after op e <;> simp

/-! ## One step -/

/-- What a step leaves alone, and what it can change once. -/
structure Progress (s : Shared) (t : Thread) (s' : Shared) (ts : List Thread) : Prop where
  /-- No step makes a second call of `open`. -/
  opener : (ts.map Thread.opener).sum ≤ t.opener
  /-- After the closing nobody becomes ready to register. -/
  ready : s.engine.closing = true → (ts.map Thread.ready).sum ≤ t.ready
  /-- `closing` is not taken back. -/
  closing : s.engine.closing = true → s'.engine.closing = true
  /-- The registration is not taken back. -/
  registered : s.engine.registered = true → s'.engine.registered = true
  /-- The request to cancel is not taken back. -/
  cancelRequested : s.control.cancelRequested = true → s'.control.cancelRequested = true
  /-- How a shutdown ends its cancellation. -/
  finishes : .shutdown .done ∈ ts →
    t = .shutdown .snapshot ∧ s.engine.registered = false ∧ s' = s ∨
    ∃ e, t = .control (.unlock (.cancel .shutdown) e)

theorem Progress.aside (hengine : s'.engine = s.engine)
    (hcancel : s'.control.cancelRequested = s.control.cancelRequested)
    (hopener : (ts.map Thread.opener).sum ≤ t.opener) (hready : (ts.map Thread.ready).sum = 0)
    (hdone : ∀ u ∈ ts, u ≠ .shutdown .done) : Progress s t s' ts := by
  refine ⟨hopener, fun _ => ?_, ?_, ?_, ?_, fun hmem => absurd rfl (hdone _ hmem)⟩
  · rw [hready]
    exact Nat.zero_le _
  · rw [hengine]
    exact id
  · rw [hengine]
    exact id
  · rw [hcancel]
    exact id

theorem wake_engine (s : Shared) : s.wake.engine = s.engine := by
  unfold Shared.wake
  split <;> rfl

theorem releaseArc_engine (s : Shared) : s.releaseArc.engine = s.engine := by
  unfold Shared.releaseArc
  split_ifs <;> rfl

theorem wake_progress (hopener : (ts.map Thread.opener).sum ≤ t.opener)
    (hready : (ts.map Thread.ready).sum = 0) (hdone : ∀ u ∈ ts, u ≠ .shutdown .done) :
    Progress s t s.wake ts :=
  .aside (wake_engine s) (congrArg _ (wake_kept s).1) hopener hready hdone

theorem releaseArc_progress (hopener : (ts.map Thread.opener).sum ≤ t.opener)
    (hready : (ts.map Thread.ready).sum = 0) (hdone : ∀ u ∈ ts, u ≠ .shutdown .done) :
    Progress s t s.releaseArc ts :=
  .aside (releaseArc_engine s) (congrArg _ (releaseArc_kept s).1) hopener hready hdone

theorem step_progress (h : step cfg s t ch = some (s', ts)) : Progress s t s' ts := by
  revert h
  cases t <;> simp only [step]
  case outside who =>
    fun_cases outsideStep s who ch <;> intro h
    case case1 c _ =>
      obtain ⟨native, -, heq⟩ := Option.map_eq_some_iff.mp h
      cases heq
      exact .aside rfl rfl le_rfl rfl (by simp)
    all_goals
      cases h
      try exact .aside rfl rfl le_rfl rfl (by simp)
  case openStream p =>
    fun_cases openStep cfg s p ch <;> first | exact of_none | apply of_some
    case case10 => exact ⟨le_rfl, fun _ => le_rfl, id, fun _ => rfl, id, by simp⟩
    all_goals first
      | exact .aside rfl rfl le_rfl rfl (by simp)
      | exact .aside rfl rfl (Nat.zero_le _) rfl (by simp)
      | exact ⟨le_rfl, fun _ => le_rfl, id, id, id, by simp⟩
      | exact ⟨le_rfl, fun hclosing => absurd hclosing ‹_›, id, id, id, by simp⟩
  case shutdown p =>
    fun_cases shutdownStep s p ch <;> first | exact of_none | apply of_some
    case case1 => exact ⟨le_rfl, fun _ => le_rfl, fun _ => rfl, id, id, by simp⟩
    case case3 => exact ⟨le_rfl, fun _ => le_rfl, id, id, id, by simp⟩
    case case4 hreg =>
      exact ⟨le_rfl, fun _ => le_rfl, id, id, id,
        fun _ => .inl ⟨rfl, Bool.eq_false_iff.mpr hreg, rfl⟩⟩
  case control p =>
    fun_cases controlStep s p ch <;> first | exact of_none | apply of_some
    case case26 op e =>
      refine ⟨(after_opener op e).le, fun _ => ?_, id, id, id, fun hmem => .inr ⟨e, ?_⟩⟩
      · rw [after_ready]
        exact Nat.zero_le _
      · rw [done_mem_after hmem]
    all_goals first
      | exact .aside rfl rfl le_rfl rfl (by simp)
      | exact ⟨le_rfl, fun _ => le_rfl, id, id, fun _ => rfl, by simp⟩
  case callback p =>
    fun_cases callbackStep cfg s p ch <;> first | exact of_none | apply of_some
    case case1 c => cases c <;> exact .aside rfl rfl le_rfl rfl (by simp [Callback.body])
    all_goals first
      | exact .aside rfl rfl le_rfl rfl (by simp)
      | exact wake_progress le_rfl rfl (by simp)
  case terminal p =>
    fun_cases terminalStep s p ch <;> first | exact of_none | apply of_some
    all_goals
      exact .aside rfl rfl le_rfl rfl (by simp)
  case finish p =>
    fun_cases finishStep s p ch <;> first | exact of_none | apply of_some
    case case3 who result =>
      cases who <;> exact .aside rfl rfl le_rfl rfl (by simp [Finisher.after])
    all_goals first
      | exact .aside rfl rfl le_rfl rfl (by simp)
      | exact wake_progress le_rfl rfl (by simp)
  case task p =>
    fun_cases taskStep cfg s p ch <;> first | exact of_none | apply of_some
    all_goals first
      | exact .aside rfl rfl le_rfl rfl (by simp)
      | exact releaseArc_progress le_rfl rfl (by simp)
  case writer p =>
    fun_cases writerStep s p ch <;> first | exact of_none | apply of_some
    all_goals
      exact .aside rfl rfl le_rfl rfl (by simp)
  case stream p =>
    fun_cases streamStep cfg s p ch <;> first | exact of_none | apply of_some
    all_goals
      exact .aside rfl rfl le_rfl rfl (by simp)
  case cleanup p =>
    fun_cases cleanupStep s p ch <;> first | exact of_none | apply of_some
    all_goals first
      | exact .aside rfl rfl le_rfl rfl (by simp)
      | exact releaseArc_progress le_rfl rfl (by simp)

/-- What the trace says of the other fields. -/
structure Readings (s : Shared) : Prop where
  /-- Who has read the request to cancel has a stream that was opened. -/
  read : ¬ Unread s → Opened s
  /-- A start that has succeeded was made. -/
  started : .started ∈ s.trace → .start ∈ s.trace
  /-- The start comes behind the registration. -/
  start : .start ∈ s.trace → s.engine.registered = true

theorem Readings.opened (hr : Readings s) (h : .cancelRead false ∈ s.trace) : Opened s :=
  hr.read fun hun => hun false h

/-- A cancel that finds the stream gone finds it done. -/
theorem Opened.answered (h : Opened s) (hc : Cleared s) (hraw : ¬ s.control.raw = true) :
    Answered s.control.done s.trace := by
  rcases hc h.1 with hset | hdone
  · contradiction
  · exact .inl hdone

theorem Begun.append {e : Event} (h : Begun s) :
    Begun { s with trace := s.trace ++ [e] } := by
  refine ⟨List.mem_append_left _ h.1, ?_⟩
  rcases h.2 with hread | hdone | hfollows
  · exact .inl (List.mem_append_left _ hread)
  · exact .inr (.inl hdone)
  · exact .inr (.inr (hfollows.append [e]))

theorem after_stands {op : GatedOp} {e : Option Error} (h : (Control.unlock op e).Stands s)
    (hd : (Control.unlock op e).Duty s) : ∀ u ∈ op.after e, Stands s u := by
  revert h hd
  fun_cases GatedOp.after op e <;> intro h hd u hu <;>
    simp only [List.not_mem_nil, List.mem_singleton] at hu <;> subst hu
  case case3 => exact ⟨hd, fun _ => h.1⟩
  case case6 e' =>
    cases e' with
    | none => exact h
    | some e => exact .inr h
  all_goals trivial

/-- A cancel that makes no native call needs none. -/
theorem unlock_stands {op : GatedOp} {e : Option Error} (h : op.Stands s) (hd : op.Duty s)
    (hr : Readings s) (hanswered : Opened s → Answered s.control.done s.trace) :
    (Control.unlock op e).Stands s := by
  cases op with
  | cancel who =>
    cases who with
    | started => exact ⟨hd.1, .inr (hanswered hd)⟩
    | shutdown => exact ⟨h, fun hread => hanswered (hr.opened hread)⟩
    | _ => exact h
  | _ => trivial

theorem controlStep_stands {p : Control} (h : controlStep s p ch = some (s', ts))
    (ht : p.Stands s) (hd : p.Duty s) (hc : Cleared s) (hr : Readings s) :
    ∀ u ∈ ts, Stands s' u := by
  revert h ht hd
  fun_cases controlStep s p ch <;> first | exact of_none | (apply of_some; intro ht hd)
  case case1 who =>
    refine List.forall_mem_singleton.mpr ?_
    cases who <;> first | exact ht | exact ⟨ht, rfl⟩
  case case5 | case7 =>
    exact List.forall_mem_singleton.mpr
      (unlock_stands ht hd hr fun hopened => hopened.answered hc ‹_›)
  case case9 =>
    exact List.forall_mem_singleton.mpr
      (unlock_stands ht hd hr fun hopened => absurd hopened.2 ‹_›)
  case case15 hdone =>
    exact List.forall_mem_singleton.mpr (unlock_stands ht hd hr fun _ => .inl hdone)
  case case20 who =>
    -- the native cancel
    refine List.forall_mem_singleton.mpr ?_
    cases who with
    | started =>
      exact ⟨List.mem_append_left _ hd.1, .inr (.inr (Trace.follows_of_mem hd.1 rfl rfl))⟩
    | shutdown =>
      refine ⟨ht, fun hread => .inr (Trace.follows_of_mem (hr.opened ?_).1 rfl rfl)⟩
      simpa using hread
    | registering =>
      simpa [Stands, Control.Stands, GatedOp.Stands, Canceler.Stands, Unstarted, Unread] using ht
    | guard => exact Begun.append ht
    | _ => trivial
  case case26 op e => exact after_stands ht hd
  all_goals first
    | exact List.forall_mem_singleton.mpr trivial
    | exact List.forall_mem_singleton.mpr ht

theorem openStep_stands {p : Open} (h : openStep cfg s p ch = some (s', ts))
    (ht : p.Stands s) (hd : p.Duty s) : ∀ u ∈ ts, Stands s' u := by
  revert h ht hd
  fun_cases openStep cfg s p ch <;> first | exact of_none | (apply of_some; intro ht hd)
  case case1 | case3 => exact List.forall_mem_singleton.mpr (.inl ⟨hd, fun _ => ht.1⟩)
  case case6 | case8 => exact List.forall_mem_singleton.mpr (.inl ⟨hd, (by simp)⟩)
  case case10 => exact List.forall_mem_singleton.mpr ⟨ht, rfl⟩
  case case11 => exact List.forall_mem_singleton.mpr ht.1
  case case13 => simpa [Stands, Open.Stands, Unstarted, Unread] using ht
  case case14 => simpa [Stands, Open.Stands, Unread] using ht.1.2
  case case15 => simpa [Stands, Open.Stands, Unread] using ht.2
  case case17 => exact List.forall_mem_singleton.mpr ⟨hd.1, (by simp)⟩
  case case20 =>
    exact List.forall_mem_singleton.mpr ⟨List.mem_append_left _ hd.1,
      .inl (List.mem_append_right _ (List.mem_singleton_self _))⟩
  case case21 =>
    exact List.forall_mem_cons.mpr ⟨trivial, List.forall_mem_cons.mpr
      ⟨trivial, List.forall_mem_singleton.mpr ht⟩⟩
  case case22 =>
    exact List.forall_mem_cons.mpr ⟨ht, List.forall_mem_cons.mpr
      ⟨trivial, List.forall_mem_singleton.mpr trivial⟩⟩
  case case26 =>
    exact List.forall_mem_cons.mpr ⟨ht, List.forall_mem_singleton.mpr trivial⟩
  all_goals first
    | exact List.forall_mem_singleton.mpr trivial
    | exact List.forall_mem_singleton.mpr ht

theorem cleanupStep_stands {p : Cleanup} (h : cleanupStep s p ch = some (s', ts))
    (ht : p.Stands s) : ∀ u ∈ ts, Stands s' u := by
  revert h ht
  fun_cases cleanupStep s p ch <;> first | exact of_none | (apply of_some; intro ht)
  case case16 why =>
    refine List.forall_mem_singleton.mpr ?_
    cases why with
    | cleanup => trivial
    | failed e => simpa [Stands, Cleanup.Stands, Dropper.Stands, Failed] using ht
  case case19 e =>
    refine List.forall_mem_singleton.mpr (.inl ?_)
    rw [Failed, (releaseArc_kept s).2.2]
    exact ht
  all_goals first
    | exact List.forall_mem_singleton.mpr trivial
    | exact List.forall_mem_singleton.mpr ht

theorem step_stands (h : step cfg s t ch = some (s', ts)) (ht : Stands s t) (hd : Duty s t)
    (hc : Cleared s) (hr : Readings s) : ∀ u ∈ ts, Stands s' u := by
  revert h
  cases t <;> simp only [step]
  case openStream p => exact fun h => openStep_stands h ht hd
  case control p => exact fun h => controlStep_stands h ht hd hc hr
  case cleanup p => exact fun h => cleanupStep_stands h ht
  case outside who =>
    fun_cases outsideStep s who ch <;> intro h
    case case1 c _ =>
      obtain ⟨native, -, heq⟩ := Option.map_eq_some_iff.mp h
      cases heq
      simp [Stands]
    all_goals cases h <;> simp [Stands, Control.Stands, Canceler.Stands]
  case shutdown p =>
    fun_cases shutdownStep s p ch <;> first | exact of_none | apply of_some
    all_goals
      first
        | exact List.forall_mem_singleton.mpr ht
        | simp [Stands]
  case callback p =>
    fun_cases callbackStep cfg s p ch <;> first | exact of_none | apply of_some
    case case1 c => cases c <;> simp [Callback.body, Stands]
    all_goals first
      | exact List.forall_mem_singleton.mpr trivial
      | simp [Stands, Control.Stands, GatedOp.Stands]
  case terminal p =>
    fun_cases terminalStep s p ch <;> first | exact of_none | apply of_some
    all_goals first
      | exact List.forall_mem_singleton.mpr trivial
      | simp [Stands]
  case finish p =>
    fun_cases finishStep s p ch <;> first | exact of_none | apply of_some
    case case3 who result => cases who <;> exact List.forall_mem_singleton.mpr trivial
    all_goals exact List.forall_mem_singleton.mpr trivial
  case task p =>
    fun_cases taskStep cfg s p ch <;> first | exact of_none | apply of_some
    all_goals first
      | exact List.forall_mem_singleton.mpr trivial
      | simp [Stands]
  case writer p =>
    fun_cases writerStep s p ch <;> first | exact of_none | apply of_some
    all_goals first
      | exact List.forall_mem_singleton.mpr trivial
      | simp [Stands]
  case stream p =>
    fun_cases streamStep cfg s p ch <;> first | exact of_none | apply of_some
    all_goals first
      | exact List.forall_mem_singleton.mpr trivial
      | simp [Stands]

/-- An event of the start comes from the call of `open`. -/
def Event.starts : Event → Bool
  | .start | .started | .cancelRead _ => true
  | _ => false

theorem onStream_of_starts {e : Event} (h : e.starts = true) : e.onStream = true := by
  cases e <;> first | rfl | cases h

theorem opener_of_cause {e : Event} (he : e.starts = true) (h : e.Cause s t) : t.opener = 1 := by
  cases e <;> cases he <;> first
    | (cases h; rfl)
    | (obtain ⟨rfl, -⟩ := h; rfl)

theorem starts_other (h : step cfg s t ch = some (s', ts)) (ht : t.opener = 0) {e : Event}
    (he : e.starts = true) : e ∈ s'.trace ↔ e ∈ s.trace := by
  refine ⟨fun hmem => ?_, trace_subset h⟩
  rcases mem_of_step h (onStream_of_starts he) hmem with hmem | hcause
  · exact hmem
  · rw [opener_of_cause he hcause] at ht
    contradiction

theorem Answered.step (h : step cfg s t ch = some (s', ts))
    (ha : Answered s.control.done s.trace) : Answered s'.control.done s'.trace := by
  obtain ⟨l, heq, -⟩ := step_caused h
  rcases ha with hdone | hfollows
  · exact .inl ((step_frame h).done hdone)
  · rw [heq]
    exact .inr (hfollows.append l)

theorem Begun.step (h : step cfg s t ch = some (s', ts)) (hb : Begun s) : Begun s' := by
  refine ⟨trace_subset h hb.1, ?_⟩
  rcases hb.2 with hread | hanswered
  · exact .inl (trace_subset h hread)
  · exact .inr (hanswered.step h)

theorem step_readings (h : step cfg s t ch = some (s', ts)) (ht : Stands s t) (hd : Duty s t)
    (hr : Readings s) : Readings s' := by
  have hframe := step_frame h
  have hprogress := step_progress h
  refine ⟨?_, ?_, ?_⟩
  · intro hread
    have hopened : Opened s := by
      by_cases hun : Unread s
      · obtain ⟨b, hb⟩ : ∃ b, .cancelRead b ∈ s'.trace := by
          by_contra hnone
          exact hread fun b hb => hnone ⟨b, hb⟩
        rcases mem_of_step h rfl hb with hb | ⟨rfl, -⟩
        · exact absurd hb (hun b)
        · exact hd
      · exact hr.read hun
    exact hframe.opened hopened
  · intro hstarted
    rcases mem_of_step h rfl hstarted with hstarted | rfl
    · exact trace_subset h (hr.started hstarted)
    · exact trace_subset h ht.1
  · intro hstart
    rcases mem_of_step h rfl hstart with hstart | rfl
    · exact hprogress.registered (hr.start hstart)
    · exact hprogress.registered ht.2

/-! ## The invariant -/

/-- What the others leave of what the call of `open` relies on. -/
structure Apart (s s' : Shared) : Prop where
  /-- What the trace says of the start. -/
  starts : ∀ e : Event, e.starts = true → (e ∈ s'.trace ↔ e ∈ s.trace)
  /-- The registration is not taken back. -/
  registered : s.engine.registered = true → s'.engine.registered = true
  /-- What has begun has begun. -/
  begun : Begun s → Begun s'

theorem Apart.unread (h : Apart s s') (hun : Unread s) : Unread s' :=
  fun b hb => hun b ((h.starts _ rfl).mp hb)

theorem Apart.unstarted (h : Apart s s') (hun : Unstarted s) : Unstarted s' :=
  ⟨fun hb => hun.1 ((h.starts _ rfl).mp hb), h.unread hun.2⟩

theorem Apart.failed {e : Error} (h : Apart s s') (hf : Failed s e) : Failed s' e :=
  ⟨fun hb => hf.1 ((h.starts _ rfl).mp hb), fun he hb => hf.2 he ((h.starts _ rfl).mp hb)⟩

theorem Open.Stands.other {p : Open} (h : Apart s s') (hp : p.Stands s) : p.Stands s' := by
  cases p with
  | load | admission | streamEngine | new | registerPush => exact h.unstarted hp
  | registerLoad | configure | start => exact ⟨h.unstarted hp.1, h.registered hp.2⟩
  | startReturn => exact ⟨(h.starts _ rfl).mpr hp.1, h.unread hp.2⟩
  | storeStarted | loadCancel => exact h.unread hp
  | spawn | ready => exact h.begun hp
  | close e =>
    cases e with
    | none => exact h.begun hp
    | some e => exact hp.imp h.failed h.begun
  | returned r =>
    cases r with
    | ok _ => exact h.begun hp
    | error e => exact hp.imp h.failed h.begun

/-- Once `cancel_requested` is set, `open` does not read it as unset. -/
theorem Settled.step (h : step cfg s t ch = some (s', ts)) (hs : Settled s) : Settled s' := by
  have hprogress := step_progress h
  refine ⟨⟨hprogress.closing hs.1.1, hprogress.cancelRequested hs.1.2⟩, fun hread => ?_⟩
  refine (hs.2 ?_).step h
  rcases mem_of_step h rfl hread with hread | ⟨-, hset⟩
  · exact hread
  · rw [hs.1.2] at hset
    contradiction

theorem stands_other (h : step cfg s t ch = some (s', ts)) (hu : Stands s u)
    (hopener : t.opener + u.opener ≤ 1) : Stands s' u := by
  have hprogress := step_progress h
  have hcancel : s.engine.closing = true ∧ s.control.cancelRequested = true →
      s'.engine.closing = true ∧ s'.control.cancelRequested = true :=
    fun hc => ⟨hprogress.closing hc.1, hprogress.cancelRequested hc.2⟩
  have hapart : u.opener = 1 → Apart s s' := by
    intro hone
    exact ⟨fun e => starts_other h (by omega), hprogress.registered, Begun.step h⟩
  cases u with
  | openStream p => exact Open.Stands.other (hapart rfl) hu
  | shutdown p => cases p <;> first | trivial | exact hprogress.closing hu
  | control p =>
    cases p with
    | store who =>
      cases who with
      | registering => exact (hapart rfl).unstarted hu
      | guard e => exact Begun.step h hu
      | shutdown => exact hprogress.closing hu
      | _ => trivial
    | lock op | raw op | started op | done op | claim op | call op =>
      cases op with
      | cancel who =>
        cases who with
        | registering => exact (hapart rfl).unstarted hu
        | guard e => exact Begun.step h hu
        | shutdown => exact hcancel hu
        | _ => trivial
      | _ => trivial
    | unlock op e =>
      cases op with
      | cancel who =>
        cases who with
        | registering => exact (hapart rfl).unstarted hu
        | started | guard => exact Begun.step h hu
        | shutdown => exact Settled.step h hu
        | _ => trivial
      | _ => trivial
  | cleanup p =>
    cases p with
    | drop why | gate why | raw why | destroy why | unlock why | context why =>
      cases why with
      | cleanup => trivial
      | failed e => exact (hapart rfl).failed hu
    | _ => trivial
  | _ => trivial

/-- `open` comes to an end of its start with an error, or past the flag. -/
theorem step_begins (h : step cfg s t ch = some (s', ts)) (ht : t.reporting ≠ 0)
    (hts : ∀ u ∈ ts, u.reporting = 0) (hstands : ∀ u ∈ ts, Stands s' u)
    (hstarted : .started ∈ s'.trace) : Begun s' := by
  have hkept : ∀ u ∈ ts, u.reporting ≠ t.reporting := by
    intro u hu heq
    exact ht (heq.symm.trans (hts u hu))
  -- where an error is reported nothing was started, or the flag was read
  have hfailed : ∀ {e : Error}, Failed s' e ∨ Begun s' → Begun s' :=
    fun hor => hor.resolve_left fun hf => hf.1 hstarted
  revert h
  cases t <;> simp only [step]
  case openStream p =>
    fun_cases openStep cfg s p ch <;> intro h <;> cases h <;> first
      | exact (hkept _ (.head _) rfl).elim
      | exact (ht rfl).elim
      | exact hfailed (hstands _ (.head _))
      | exact hstands _ (.head _)
  case control p =>
    fun_cases controlStep s p ch <;> intro h <;> cases h
    case case26 op e =>
      revert hkept ht hstands
      fun_cases GatedOp.after op e <;> intro ht hkept hstands <;> first
        | exact (ht rfl).elim
        | exact (hkept _ (.head _) rfl).elim
        | exact hstands _ (.head _)
    all_goals first
      | exact (ht rfl).elim
      | exact (hkept _ (.head _) rfl).elim
  case cleanup p =>
    fun_cases cleanupStep s p ch <;> intro h <;> cases h <;> first
      | exact (ht rfl).elim
      | exact (hkept _ (.head _) rfl).elim
      | exact hfailed (hstands _ (.head _))
  all_goals exact (ht rfl).elim

variable {allowed : Policy Shared Thread Choice} {c c' : Config Shared Thread}

/-- What holds of an `open` against any number of shutdowns. -/
structure StartupInv (c : Config Shared Thread) : Prop where
  /-- There is one call of `open`. -/
  opener : total Thread.opener c.threads ≤ 1
  /-- The threads stand where they can. -/
  stands : ∀ t ∈ c.threads, Stands c.shared t
  /-- The trace says what the fields do. -/
  readings : Readings c.shared
  /-- A stream that was started has been reported so. -/
  begun : total Thread.reporting c.threads = 0 → .started ∈ c.shared.trace → Begun c.shared
  /-- A shutdown that is done with its cancellation has cancelled this stream, or
  came before it was registered. -/
  late : .shutdown .done ∈ c.threads → Settled c.shared ∨
    c.shared.engine.closing = true ∧ total Thread.ready c.threads = 0 ∧
      .start ∉ c.shared.trace

theorem startupInv_init : StartupInv start.config where
  opener := by simp [start, Listed.config, Thread.opener]
  stands := by simp [start, Listed.config, Stands, Open.Stands, Unstarted, Unread]
  readings := by constructor <;> simp [start, Listed.config, Unread]
  begun := by simp [start, Listed.config]
  late := by simp [start, Listed.config]

theorem StartupInv.begun_step {rest : Multiset Thread} (hi : StartupInv ⟨s, t ::ₘ rest⟩)
    (h : step cfg s t ch = some (s', ts)) (hstands : ∀ u ∈ ts, Stands s' u)
    (hzero : total Thread.reporting (ts + rest) = 0) (hstarted : .started ∈ s'.trace) :
    Begun s' := by
  rw [total_add, total_coe] at hzero
  by_cases ht : t.reporting = 0
  · have hbefore : total Thread.reporting (t ::ₘ rest) = 0 := by
      rw [total_cons]
      omega
    rcases mem_of_step h rfl hstarted with hstarted | rfl
    · exact (hi.begun hbefore hstarted).step h
    · cases ht
  · refine step_begins h ht ?_ hstands hstarted
    rw [← total_coe] at hzero
    exact total_eq_zero.mp (Nat.eq_zero_of_add_eq_zero_right hzero)

/-- A shutdown ends its cancellation, or one that did so stays right. -/
theorem StartupInv.late_step {rest : Multiset Thread} (hi : StartupInv ⟨s, t ::ₘ rest⟩)
    (h : step cfg s t ch = some (s', ts))
    (hdone : .shutdown .done ∈ (ts : Multiset Thread) + rest) :
    Settled s' ∨ s'.engine.closing = true ∧ total Thread.ready (ts + rest) = 0 ∧
      .start ∉ s'.trace := by
  have hmem : t ∈ t ::ₘ rest := Multiset.mem_cons_self t rest
  have hprogress := step_progress h
  have hstands := hi.stands t hmem
  -- with no native start to come there is none
  have hnone : s.engine.closing = true → total Thread.ready (t ::ₘ rest) = 0 →
      .start ∉ s.trace → s'.engine.closing = true ∧ total Thread.ready (ts + rest) = 0 ∧
        .start ∉ s'.trace := by
    intro hclosing hzero hnot
    have hle := hprogress.ready hclosing
    refine ⟨hprogress.closing hclosing, ?_, fun hstart => ?_⟩
    · rw [total_cons] at hzero
      rw [total_add, total_coe]
      omega
    · rcases mem_of_step h rfl hstart with hstart | rfl
      · exact hnot hstart
      · have hready := total_eq_zero.mp hzero _ hmem
        cases hready
  rcases Multiset.mem_add.mp hdone with hdone | hdone
  · -- this step ends the cancellation of a shutdown
    rcases hprogress.finishes (Multiset.mem_coe.mp hdone) with ⟨rfl, hreg, -⟩ | ⟨e, rfl⟩
    · refine .inr (hnone hstands (total_eq_zero.mpr fun u hu => ?_) fun hstart => ?_)
      · have hsu := hi.stands u hu
        cases u with
        | openStream p =>
          cases p with
          | configure | start =>
            have hset : s.engine.registered = true := hsu.2
            rw [hreg] at hset
            contradiction
          | _ => rfl
        | _ => rfl
      · have hset := hi.readings.start hstart
        dsimp only at hset
        rw [hreg] at hset
        contradiction
    · exact .inl (Settled.step h hstands)
  · rcases hi.late (Multiset.mem_cons_of_mem hdone) with hsettled | ⟨hclosing, hzero, hnot⟩
    · exact .inl (Settled.step h hsettled)
    · exact .inr (hnone hclosing hzero hnot)

theorem startupInv_step (ha : AbandonInv c) (hi : StartupInv c)
    (hs : Step (step cfg) allowed c c') : StartupInv c' := by
  obtain ⟨_, hn⟩ := hs
  rename_i s s' t ts rest ch _
  have hmem : t ∈ t ::ₘ rest := Multiset.mem_cons_self t rest
  have hduty := ha.duty t hmem
  have hstands := hi.stands t hmem
  have hown := step_stands hn hstands hduty ha.cleared hi.readings
  refine ⟨passed_step hi.opener (step_progress hn).opener, ?_,
    step_readings hn hstands hduty hi.readings, hi.begun_step hn hown, hi.late_step hn⟩
  refine forall_step hi.stands (fun _ => hown) fun u hu hsu => ?_
  exact stands_other hn hsu ((add_le_total hu).trans hi.opener)

theorem startupInv_reachable (h : Reachable (step cfg) allowed start.config c) :
    StartupInv c := by
  induction h with
  | refl => exact startupInv_init
  | tail hr hs ih => exact startupInv_step (abandonInv_reachable hr) ih hs

/-- A shutdown that is done with its cancellations has reached a stream that was started. -/
theorem StartupInv.answered (hi : StartupInv c) (hdone : .shutdown .done ∈ c.threads)
    (hb : Begun c.shared) : Answered c.shared.control.done c.shared.trace := by
  rcases hi.late hdone with hsettled | ⟨-, -, hnot⟩
  · rcases hb.2 with hread | hanswered
    · exact hsettled.2 hread
    · exact hanswered
  · exact absurd (hi.readings.started hb.1) hnot

/-- **A shutdown's cancellation is never lost.** When a shutdown is done with its cancellations
and `open` has returned, the stream was refused with `EngineShutdown` and never started, or its
native start returned and it is done or was cancelled after that, or `open` reported another
failure and the native start did not succeed. The same holds while `open` waits for the stream
to be ready, and when its future is dropped. -/
theorem shutdown_cancels_stream (h : Reachable (step cfg) allowed start.config c)
    (hdone : .shutdown .done ∈ c.threads) :
    (∀ r, .openStream (.returned r) ∈ c.threads →
      r = .error .engineShutdown ∧ .start ∉ c.shared.trace ∨
      .started ∈ c.shared.trace ∧ Answered c.shared.control.done c.shared.trace ∨
      ∃ e, r = .error e ∧ e ≠ .engineShutdown ∧ .started ∉ c.shared.trace) ∧
    ((∀ t ∈ c.threads, t.reporting = 0) → .started ∈ c.shared.trace →
      Answered c.shared.control.done c.shared.trace) := by
  have hi := startupInv_reachable h
  refine ⟨fun r hr => ?_, fun hzero hstarted => ?_⟩
  · have hstands := hi.stands _ hr
    cases r with
    | ok _ => exact .inr (.inl ⟨hstands.1, hi.answered hdone hstands⟩)
    | error e =>
      rcases hstands with hfailed | hbegun
      · by_cases he : e = .engineShutdown
        · exact .inl ⟨by rw [he], hfailed.2 he⟩
        · exact .inr (.inr ⟨e, rfl, he, hfailed.1⟩)
      · exact .inr (.inl ⟨hbegun.1, hi.answered hdone hbegun⟩)
  · exact hi.answered hdone (hi.begun (total_eq_zero.mpr hzero) hstarted)

end TokioCronet.Bidirectional
