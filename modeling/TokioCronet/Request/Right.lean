import TokioCronet.Request.Buffers
import TokioCronet.Request.Startup

/-!
# The right to read

From the start of `on_response_started` on somebody has the right to call `Read`: a
callback, the task that sends a chunk, or the native side, which got it with an accepted
`Read` and gives it back with the completion. Whoever gives it up first has the request
cancelled, unless the request is over.
-/

namespace TokioCronet.Request

open Pool

variable {cfg : Settings} {s s' : Shared} {t u : Thread} {ch : Choice} {ts : List Thread}
  {rest : Multiset Thread} {c c' : Config Shared Thread}

/-! ## Who has it -/

/-- A read is accepted. -/
def Event.accepts : Event → Bool
  | .read _ code => code.isNone
  | _ => false

/-- A read is completed. -/
def Event.completes : Event → Bool
  | .callbackBegun (.readCompleted _ _ _) => true
  | _ => false

/-- The response has started. -/
def Event.responds : Event → Bool
  | .callbackBegun (.responseStarted _) => true
  | _ => false

/-- The native side has the right from an accepted `Read` until the completion begins. -/
def outstanding (tr : List Event) : Nat := tr.countP Event.accepts - tr.countP Event.completes

/-- Threads that come to the next `Read`. -/
def Thread.right : Thread → Nat
  | .runnable .entered r => r.token
  | .callback (.headers _) | .callback .allocate | .callback (.ownCreated _)
  | .callback (.own _ _ _) | .callback (.account _ _ _) | .callback (.copy _ _ _)
  | .read (.call _ _) | .task (.send _ _) => 1
  | .control (.lock op) | .control (.raw op) | .control (.done op) | .control (.call op) =>
    op.token
  | _ => 0

/-- Whether the canceller gives up the right to read. -/
def Canceler.givesUp : Canceler → Nat
  | .task sender => sender.toNat
  | _ => 0

/-- Whether the operation gives up the right to read. -/
def GatedOp.givesUp : GatedOp → Nat
  | .cancel who => who.givesUp
  | _ => 0

/-- A send task that comes to a cancel instead. -/
def Thread.givesUp : Thread → Nat
  | .task (.record sender _) => sender.toNat
  | .control (.store who) => who.givesUp
  | .control (.lock op) | .control (.raw op) | .control (.done op) | .control (.call op) =>
    op.givesUp
  | _ => 0

/-- A callback, or a send task in `read`, that comes to a cancel instead. -/
def Thread.fails : Thread → Nat
  | .read (.returned _ _ code) => code.isSome.toNat
  | .read (.record _ _) | .read (.cancel _) => 1
  | _ => 0

/-- Whether a thread has the right to read, or has still to cancel for want of a use for
it. -/
def Thread.holds (t : Thread) : Nat := t.right + t.givesUp + t.fails

/-- `on_response_started` on its way to its start. -/
def Thread.responding : Thread → Nat
  | .runnable .queued r | .runnable .running r => r.birth
  | _ => 0

/-- `on_read_completed` on its way to its start. -/
def Thread.completing : Thread → Nat
  | .runnable .queued (.readCompleted _ _ _) | .runnable .running (.readCompleted _ _ _) => 1
  | _ => 0

/-- Whether the operation follows a redirect. -/
def GatedOp.redirecting : GatedOp → Nat
  | .followRedirect .callback => 1
  | _ => 0

/-- `on_redirect_received` up to its `FollowRedirect`, or to the failure of it. -/
def Thread.redirecting : Thread → Nat
  | .runnable _ (.redirectReceived _ _) | .callback (.redirect _ _) => 1
  | .control (.lock op) | .control (.raw op) | .control (.done op) | .control (.call op) =>
    op.redirecting
  | .control (.unlock op e) => op.redirecting * e.isSome.toNat
  | _ => 0

section Helpers

variable (op : GatedOp) (site : Site) (r : Runnable) (e : Option Error)

theorem after_right :
    ((op.after e).map Thread.right).sum + ((op.after e).map Thread.givesUp).sum = 0 := by
  fun_cases GatedOp.after op e <;> rfl

/-- A redirect that is not followed. -/
theorem after_holds : ((op.after e).map Thread.holds).sum = op.redirecting * e.isSome.toNat := by
  fun_cases GatedOp.after op e <;> simp [Thread.holds, Thread.right, Thread.givesUp, Thread.fails,
    GatedOp.redirecting]

theorem after_waits : ((op.after e).map Thread.responding).sum = 0 ∧
    ((op.after e).map Thread.completing).sum = 0 ∧
    ((op.after e).map Thread.redirecting).sum = 0 := by
  fun_cases GatedOp.after op e <;> exact ⟨rfl, rfl, rfl⟩

theorem leave_right :
    (site.leave.map Thread.right).sum + (site.leave.map Thread.givesUp).sum = 0 := by
  cases site <;> rfl

theorem leave_holds : (site.leave.map Thread.holds).sum = 0 := by
  cases site <;> rfl

theorem leave_waits : (site.leave.map Thread.responding).sum = 0 ∧
    (site.leave.map Thread.completing).sum = 0 ∧ (site.leave.map Thread.redirecting).sum = 0 := by
  cases site <;> exact ⟨rfl, rfl, rfl⟩

end Helpers

/-! ## One step -/

/-- Cronet reports a redirect or the response. -/
def Choice.reports : Choice → Nat
  | .submit r => match r with
    | .redirectReceived _ _ | .responseStarted _ => 1
    | _ => 0
  | _ => 0

/-- Nobody gets the right from nowhere. -/
structure Granted (s : Shared) (t : Thread) (ch : Choice) (s' : Shared) (ts : List Thread) :
    Prop where
  /-- What the step adds it was given. -/
  right : s'.trace.countP Event.accepts + (!s'.native.responded).toNat +
      (ts.map Thread.responding).sum +
      ((ts.map Thread.right).sum + (ts.map Thread.givesUp).sum) +
      s.trace.countP Event.completes ≤
    s.trace.countP Event.accepts + (!s.native.responded).toNat + t.responding +
      (t.right + t.givesUp) + s'.trace.countP Event.completes
  /-- Only a callback of a redirect that is not followed fails without having had it. -/
  holds : s'.trace.countP Event.accepts + (ts.map Thread.responding).sum +
      ((ts.map Thread.holds).sum + (ts.map Thread.redirecting).sum) +
      s.trace.countP Event.completes ≤
    s.trace.countP Event.accepts + t.responding + (t.holds + t.redirecting) + ch.reports +
      s'.trace.countP Event.completes
  /-- A completion answers an accepted `Read`. -/
  answers : s'.trace.countP Event.completes + s'.native.reading.isSome.toNat +
      (ts.map Thread.completing).sum + s.trace.countP Event.accepts ≤
    s.trace.countP Event.completes + s.native.reading.isSome.toNat + t.completing +
      s'.trace.countP Event.accepts

/-- What becomes of the right. -/
inductive Keeps (s : Shared) (t : Thread) (s' : Shared) (ts : List Thread) : Prop where
  | cancels : s'.trace = s.trace ++ [.cancel] → Keeps s t s' ts
  /-- The gate refuses, since the request is gone or done. -/
  | refused : s.control.raw = false ∨ s.control.done = true → Keeps s t s' ts
  | kept : s.trace.countP Event.accepts + t.holds + s'.trace.countP Event.completes ≤
      s'.trace.countP Event.accepts + (ts.map Thread.holds).sum +
        s.trace.countP Event.completes → Keeps s t s' ts

/-- No read is accepted or completed. -/
def Apart (tr tr' : List Event) : Prop :=
  tr' = tr ∨ ∃ e : Event, tr' = tr ++ [e] ∧ e.accepts = false ∧ e.completes = false

theorem Apart.counts {tr tr' : List Event} (h : Apart tr tr') :
    tr'.countP Event.accepts = tr.countP Event.accepts ∧
      tr'.countP Event.completes = tr.countP Event.completes := by
  rcases h with rfl | ⟨e, rfl, haccepts, hcompletes⟩
  · exact ⟨rfl, rfl⟩
  · rw [List.countP_append, List.countP_append, List.countP_singleton, List.countP_singleton,
      haccepts, hcompletes]
    exact ⟨rfl, rfl⟩

/-- A step of the program that neither asks Cronet for anything nor is asked. -/
structure Hands (s : Shared) (t : Thread) (s' : Shared) (ts : List Thread) : Prop where
  /-- The response starts only with its callback. -/
  responded : s'.native.responded = s.native.responded
  /-- Cronet's read is as it was. -/
  reading : s'.native.reading = s.native.reading
  /-- The right is handed on. -/
  right : (ts.map Thread.right).sum + (ts.map Thread.givesUp).sum ≤ t.right + t.givesUp
  /-- So is the right of one party. -/
  holds : (ts.map Thread.holds).sum + (ts.map Thread.redirecting).sum ≤ t.holds + t.redirecting
  /-- No response starts. -/
  responding : (ts.map Thread.responding).sum ≤ t.responding
  /-- No completion comes. -/
  completing : (ts.map Thread.completing).sum ≤ t.completing

theorem Hands.granted (h : Hands s t s' ts) (htrace : Apart s.trace s'.trace) :
    Granted s t ch s' ts := by
  obtain ⟨haccepts, hcompletes⟩ := htrace.counts
  have hright := h.right
  have hholds := h.holds
  have hresponding := h.responding
  have hcompleting := h.completing
  constructor
  · rw [haccepts, hcompletes, h.responded]
    omega
  · rw [haccepts, hcompletes]
    omega
  · rw [haccepts, hcompletes, h.reading]
    omega

theorem Keeps.of_le (htrace : Apart s.trace s'.trace) (h : t.holds ≤ (ts.map Thread.holds).sum) :
    Keeps s t s' ts := by
  obtain ⟨haccepts, hcompletes⟩ := htrace.counts
  refine .kept ?_
  rw [haccepts, hcompletes]
  omega

/-- What a step does with the right. -/
structure Moves (s : Shared) (t : Thread) (ch : Choice) (s' : Shared) (ts : List Thread) :
    Prop where
  /-- The right is not made from nothing. -/
  granted : Granted s t ch s' ts
  /-- One party keeps it. -/
  keeps : Keeps s t s' ts

/-- The right stays with the thread and what comes of it. -/
theorem Moves.still (hresponded : s'.native.responded = s.native.responded)
    (hreading : s'.native.reading = s.native.reading) (htrace : Apart s.trace s'.trace)
    (hright : (ts.map Thread.right).sum + (ts.map Thread.givesUp).sum ≤ t.right + t.givesUp)
    (hholds : (ts.map Thread.holds).sum = t.holds)
    (hredirecting : (ts.map Thread.redirecting).sum ≤ t.redirecting)
    (hresponding : (ts.map Thread.responding).sum ≤ t.responding)
    (hcompleting : (ts.map Thread.completing).sum ≤ t.completing) : Moves s t ch s' ts where
  granted := Hands.granted ⟨hresponded, hreading, hright,
    Nat.add_le_add (Nat.le_of_eq hholds) hredirecting, hresponding, hcompleting⟩ htrace
  keeps := Keeps.of_le htrace (Nat.le_of_eq hholds.symm)

/-- A thread that has nothing to do with it. -/
theorem Moves.idle (hresponded : s'.native.responded = s.native.responded)
    (hreading : s'.native.reading = s.native.reading) (htrace : Apart s.trace s'.trace)
    (ht : t.holds = 0)
    (hright : (ts.map Thread.right).sum + (ts.map Thread.givesUp).sum = 0)
    (hholds : (ts.map Thread.holds).sum = 0)
    (hwaits : (ts.map Thread.responding).sum = 0 ∧ (ts.map Thread.completing).sum = 0 ∧
      (ts.map Thread.redirecting).sum = 0) : Moves s t ch s' ts :=
  .still hresponded hreading htrace (hright.trans_le (Nat.zero_le _)) (hholds.trans ht.symm)
    (hwaits.2.2.trans_le (Nat.zero_le _)) (hwaits.1.trans_le (Nat.zero_le _))
    (hwaits.2.1.trans_le (Nat.zero_le _))

theorem apart_snoc {tr : List Event} {e : Event} (haccepts : e.accepts = false)
    (hcompletes : e.completes = false) : Apart tr (tr ++ [e]) := .inr ⟨e, rfl, haccepts, hcompletes⟩

theorem outsideStep_moves {who : Outside} (h : outsideStep s who ch = some (s', ts))
    (hresponse : ∀ info, ch = .submit (.responseStarted info) → s.native.responded = false)
    (hread : ∀ b n content, ch = .submit (.readCompleted b n content) →
      s.native.reading = some b) : Moves s (.outside who) ch s' ts := by
  revert h
  fun_cases outsideStep s who ch <;> first | exact of_none | apply of_some
  case case1 r _ =>
    cases r with
    | responseStarted info =>
      have hnew := hresponse info rfl
      refine ⟨⟨?_, ?_, ?_⟩, .of_le (.inl rfl) (Nat.zero_le _)⟩
      · rw [hnew]
        exact Nat.le_refl _
      · exact Nat.le_refl _
      · exact Nat.le_refl _
    | readCompleted b n content =>
      have hanswer := hread b n content rfl
      refine ⟨⟨Nat.le_refl _, Nat.le_refl _, ?_⟩, .of_le (.inl rfl) (Nat.zero_le _)⟩
      simp [Native.submit, hanswer, Thread.completing]
    | redirectReceived info location =>
      exact ⟨⟨Nat.le_refl _, Nat.le_refl _, Nat.le_refl _⟩, .of_le (.inl rfl) (Nat.zero_le _)⟩
    | succeeded =>
      refine ⟨⟨Nat.le_refl _, Nat.le_refl _, ?_⟩, .of_le (.inl rfl) (Nat.zero_le _)⟩
      simp [Native.submit, Thread.completing]
    | _ => exact .idle rfl rfl (.inl rfl) rfl rfl rfl ⟨rfl, rfl, rfl⟩
  all_goals first
    | exact .idle rfl rfl (.inl rfl) rfl rfl rfl ⟨rfl, rfl, rfl⟩
    | exact .idle rfl rfl (apart_snoc rfl rfl) rfl rfl rfl ⟨rfl, rfl, rfl⟩

theorem controlStep_moves {p : Control} (h : controlStep s p ch = some (s', ts)) :
    Moves s (.control p) ch s' ts := by
  revert h
  fun_cases controlStep s p ch <;> first | exact of_none | apply of_some
  -- the gate refuses
  case case8 op hraw | case9 op hraw =>
    refine ⟨Hands.granted ⟨rfl, rfl, Nat.zero_le _, ?_, Nat.zero_le _, Nat.zero_le _⟩ (.inl rfl),
      .refused (by simp_all)⟩
    cases op with
    | followRedirect who => cases who <;> exact Nat.le_refl _
    | _ => exact Nat.zero_le _
  case case11 =>
    exact ⟨Hands.granted ⟨rfl, rfl, Nat.zero_le _, Nat.zero_le _, Nat.zero_le _, Nat.zero_le _⟩
      (apart_snoc rfl rfl), .cancels rfl⟩
  -- a `FollowRedirect` that fails comes to a cancel
  case case12 who code =>
    cases who <;> cases code <;> exact .still rfl rfl (apart_snoc rfl rfl) (Nat.le_refl _) rfl
      (by first | exact Nat.le_refl _ | exact Nat.zero_le _) (Nat.le_refl _) (Nat.le_refl _)
  case case15 op e =>
    obtain ⟨hresponding, hcompleting, hredirecting⟩ := after_waits op e
    refine ⟨Hands.granted ⟨rfl, rfl, (after_right op e).trans_le (Nat.zero_le _), ?_,
      hresponding.trans_le (Nat.zero_le _), hcompleting.trans_le (Nat.zero_le _)⟩ (.inl rfl),
      .of_le (.inl rfl) (Nat.zero_le _)⟩
    rw [after_holds, hredirecting]
    exact (Nat.add_comm _ _).le
  all_goals first
    | exact .still rfl rfl (.inl rfl) (Nat.le_refl _) rfl (Nat.le_refl _) (Nat.le_refl _)
        (Nat.le_refl _)
    | exact .idle rfl rfl (.inl rfl) rfl rfl rfl ⟨rfl, rfl, rfl⟩
    | exact .idle rfl rfl (apart_snoc rfl rfl) rfl rfl rfl ⟨rfl, rfl, rfl⟩

theorem runnableStep_moves {stage : Stage} {r : Runnable}
    (h : runnableStep s stage r ch = some (s', ts)) : Moves s (.runnable stage r) ch s' ts := by
  revert h
  fun_cases runnableStep s stage r ch <;> first | exact of_none | apply of_some
  case case1 =>
    exact .still rfl rfl (apart_snoc rfl rfl) (Nat.le_refl _) rfl
      (by cases r <;> exact Nat.le_refl _)
      (Nat.le_refl _) (by cases r <;> exact Nat.le_refl _)
  case case2 =>
    cases r with
    | readCompleted b n content =>
      refine ⟨⟨?_, ?_, ?_⟩, .kept ?_⟩ <;>
        simp [Thread.holds, Thread.right, Thread.givesUp, Thread.fails, Thread.responding,
          Thread.completing, Thread.redirecting, Runnable.token, Runnable.birth, Event.accepts,
          Event.completes] <;> omega
    | responseStarted info =>
      refine ⟨⟨?_, ?_, ?_⟩, .kept ?_⟩ <;>
        simp [Thread.holds, Thread.right, Thread.givesUp, Thread.fails, Thread.responding,
          Thread.completing, Thread.redirecting, Runnable.token, Runnable.birth, Event.accepts,
          Event.completes]
    | _ =>
      exact .still rfl rfl (apart_snoc rfl rfl) (Nat.le_refl _) rfl (Nat.le_refl _) (Nat.le_refl _)
        (Nat.le_refl _)
  case case3 =>
    exact .still rfl rfl (.inl rfl) (Nat.zero_le _) rfl (Nat.zero_le _) (Nat.zero_le _)
      (Nat.zero_le _)
  all_goals
    cases r <;> exact .still rfl rfl (.inl rfl) (Nat.le_refl _) rfl (Nat.le_refl _)
      (Nat.le_refl _) (Nat.le_refl _)

theorem callbackStep_moves {p : Callback} (h : callbackStep cfg s p ch = some (s', ts)) :
    Moves s (.callback p) ch s' ts := by
  revert h
  fun_cases callbackStep cfg s p ch <;> first | exact of_none | apply of_some
  all_goals first
    | exact .still rfl rfl (.inl rfl) (Nat.le_refl _) rfl (Nat.le_refl _) (Nat.le_refl _)
        (Nat.le_refl _)
    | exact .still rfl rfl (apart_snoc rfl rfl) (Nat.le_refl _) rfl (Nat.le_refl _)
        (Nat.le_refl _) (Nat.le_refl _)
    | exact .still rfl rfl (.inl rfl) (Nat.zero_le _) rfl (Nat.zero_le _) (Nat.le_refl _)
        (Nat.le_refl _)
    | exact .still rfl rfl (apart_snoc rfl rfl) (Nat.zero_le _) rfl (Nat.zero_le _) (Nat.le_refl _)
        (Nat.le_refl _)
    | exact ⟨Hands.granted ⟨rfl, rfl, Nat.le_refl _, Nat.le_refl _, Nat.le_refl _,
        Nat.le_refl _⟩ (.inl rfl), .of_le (.inl rfl) (Nat.zero_le _)⟩

theorem readStep_moves {p : Read} (h : readStep s p ch = some (s', ts)) :
    Moves s (.read p) ch s' ts := by
  revert h
  fun_cases readStep s p ch <;> first | exact of_none | apply of_some
  case case1 site b code =>
    cases code with
    | none =>
      refine ⟨⟨?_, ?_, ?_⟩, .kept ?_⟩ <;>
        simp [Native.read, Thread.holds, Thread.right, Thread.givesUp, Thread.fails,
          Thread.responding, Thread.completing, Thread.redirecting, Event.accepts,
          Event.completes] <;> omega
    | some code =>
      cases code <;> exact .still rfl rfl (apart_snoc rfl rfl) (Nat.zero_le _) rfl (Nat.le_refl _)
        (Nat.le_refl _) (Nat.le_refl _)
  all_goals first
    | exact .still rfl rfl (.inl rfl) (Nat.le_refl _) rfl (Nat.le_refl _) (Nat.le_refl _)
        (Nat.le_refl _)
    | exact .still rfl rfl (apart_snoc rfl rfl) (Nat.le_refl _) rfl (Nat.le_refl _)
        (Nat.le_refl _) (Nat.le_refl _)
    | exact .idle rfl rfl (.inl rfl) rfl (leave_right _) (leave_holds _) (leave_waits _)
    | (obtain ⟨hresponding, hcompleting, hredirecting⟩ := leave_waits ‹Site›
       refine ⟨Hands.granted ⟨rfl, rfl, (leave_right _).trans_le (Nat.zero_le _), ?_,
         hresponding.le, hcompleting.le⟩ (apart_snoc rfl rfl), .cancels rfl⟩
       rw [leave_holds, hredirecting]
       exact Nat.zero_le _)

theorem taskStep_moves {p : Task} (h : taskStep cfg s p ch = some (s', ts)) :
    Moves s (.task p) ch s' ts := by
  revert h
  fun_cases taskStep cfg s p ch <;> first | exact of_none | apply of_some
  all_goals first
    | exact .still rfl rfl (.inl rfl) (Nat.le_refl _) rfl (Nat.le_refl _) (Nat.le_refl _)
        (Nat.le_refl _)
    | exact .still rfl rfl (apart_snoc rfl rfl) (Nat.le_refl _) rfl (Nat.le_refl _)
        (Nat.le_refl _) (Nat.le_refl _)
    | exact .idle rfl rfl (.inl rfl) rfl rfl rfl ⟨rfl, rfl, rfl⟩
    | exact .idle rfl rfl (apart_snoc rfl rfl) rfl rfl rfl ⟨rfl, rfl, rfl⟩
    | exact .idle (by rw [Shared.releaseArc_native]) (by rw [Shared.releaseArc_native])
        (.inl (Shared.releaseArc_trace s)) rfl rfl rfl ⟨rfl, rfl, rfl⟩

/-- **Every step hands the right on, or has the request cancelled.** -/
theorem step_moves (h : step cfg s t ch = some (s', ts))
    (hresponse : ∀ info, ch = .submit (.responseStarted info) → s.native.responded = false)
    (hread : ∀ b n content, ch = .submit (.readCompleted b n content) →
      s.native.reading = some b) : Moves s t ch s' ts := by
  cases t with
  | outside who => exact outsideStep_moves h hresponse hread
  | control p => exact controlStep_moves h
  | runnable stage r => exact runnableStep_moves h
  | callback p => exact callbackStep_moves h
  | read p => exact readStep_moves h
  | task p => exact taskStep_moves h
  | start p =>
    revert h
    rw [step]
    fun_cases startStep s p ch <;> first | exact of_none | apply of_some
    all_goals first
      | exact .idle rfl rfl (.inl rfl) rfl rfl rfl ⟨rfl, rfl, rfl⟩
      | exact .idle rfl rfl (apart_snoc rfl rfl) rfl rfl rfl ⟨rfl, rfl, rfl⟩
  | shutdown p =>
    revert h
    rw [step]
    fun_cases shutdownStep s p ch <;> first | exact of_none | apply of_some
    all_goals
      exact .idle rfl rfl (.inl rfl) rfl rfl rfl ⟨rfl, rfl, rfl⟩
  | terminal p =>
    revert h
    rw [step]
    fun_cases terminalStep s p ch <;> first | exact of_none | apply of_some
    all_goals first
      | exact .idle rfl rfl (.inl rfl) rfl rfl rfl ⟨rfl, rfl, rfl⟩
      | exact .idle rfl rfl (apart_snoc rfl rfl) rfl rfl rfl ⟨rfl, rfl, rfl⟩
  | upload p =>
    revert h
    rw [step]
    fun_cases uploadStep cfg s p ch <;> first | exact of_none | apply of_some
    all_goals first
      | exact .idle rfl rfl (.inl rfl) rfl rfl rfl ⟨rfl, rfl, rfl⟩
      | exact .idle rfl rfl (apart_snoc rfl rfl) rfl rfl rfl ⟨rfl, rfl, rfl⟩
  | cleanup p =>
    revert h
    rw [step]
    fun_cases cleanupStep s p ch <;> first | exact of_none | apply of_some
    all_goals first
      | exact .idle rfl rfl (.inl rfl) rfl rfl rfl ⟨rfl, rfl, rfl⟩
      | exact .idle rfl rfl (apart_snoc rfl rfl) rfl rfl rfl ⟨rfl, rfl, rfl⟩
      | exact .idle (by rw [Shared.releaseArc_native]) (by rw [Shared.releaseArc_native])
          (.inl (Shared.releaseArc_trace s)) rfl rfl rfl ⟨rfl, rfl, rfl⟩
  | execute p =>
    revert h
    rw [step]
    fun_cases executeStep s p ch <;> first | exact of_none | apply of_some
    all_goals
      exact .idle rfl rfl (.inl rfl) rfl rfl rfl ⟨rfl, rfl, rfl⟩

/-- Who clears `raw`, sets `done` and wakes the native side. -/
@[mk_iff]
structure Gates (s : Shared) (t : Thread) (s' : Shared) : Prop where
  /-- The pointer is cleared by the cleanup. -/
  raw : s'.control.raw = false → s.control.raw = false ∨ ∃ why, t = .cleanup (.raw why)
  /-- `done` is set by the terminal callback. -/
  done : s'.control.done = true → s.control.done = true ∨ ∃ fallback, t = .terminal (.done fallback)
  /-- Cronet is asked for the first thing by the start. -/
  silent : s.native.Silent → s'.native.Silent ∨ t = .start .start

theorem step_gates (h : step cfg s t ch = some (s', ts)) : Gates s t s' := by
  revert h
  cases t <;> simp only [step]
  case outside who =>
    fun_cases outsideStep s who ch <;> first | exact of_none | apply of_some
    case case1 haccepting =>
      refine ⟨.inl, .inl, fun hsilent => ?_⟩
      rw [hsilent.1] at haccepting
      cases haccepting
    all_goals exact ⟨.inl, .inl, .inl⟩
  case start p =>
    fun_cases startStep s p ch <;> first | exact of_none | apply of_some
    all_goals first
      | exact ⟨.inl, .inl, .inl⟩
      | exact ⟨(by simp), .inl, .inl⟩
      | exact ⟨.inl, .inl, fun _ => .inr rfl⟩
      | exact ⟨.inl, .inl, fun hsilent => .inl ⟨rfl, hsilent.2⟩⟩
  case shutdown p =>
    fun_cases shutdownStep s p ch <;> first | exact of_none | apply of_some
    all_goals exact ⟨.inl, .inl, .inl⟩
  case control p =>
    fun_cases controlStep s p ch <;> first | exact of_none | apply of_some
    all_goals exact ⟨.inl, .inl, .inl⟩
  case runnable stage r =>
    fun_cases runnableStep s stage r ch <;> first | exact of_none | apply of_some
    all_goals first
      | exact ⟨.inl, .inl, .inl⟩
      | exact ⟨.inl, .inl, fun hsilent => .inl (by simpa [Native.Silent] using hsilent)⟩
  case callback p =>
    fun_cases callbackStep cfg s p ch <;> first | exact of_none | apply of_some
    all_goals exact ⟨.inl, .inl, .inl⟩
  case read p =>
    fun_cases readStep s p ch <;> first | exact of_none | apply of_some
    all_goals first
      | exact ⟨.inl, .inl, .inl⟩
      | exact ⟨.inl, .inl, fun hsilent => .inl (by simpa [Native.Silent] using hsilent)⟩
  case terminal p =>
    fun_cases terminalStep s p ch <;> first | exact of_none | apply of_some
    all_goals first
      | exact ⟨.inl, .inl, .inl⟩
      | exact ⟨.inl, fun _ => .inr ⟨_, rfl⟩, .inl⟩
  case task p =>
    fun_cases taskStep cfg s p ch <;> first | exact of_none | apply of_some
    all_goals first
      | exact ⟨.inl, .inl, .inl⟩
      | (rw [gates_iff, Shared.releaseArc_control, Shared.releaseArc_native]
         exact ⟨.inl, .inl, .inl⟩)
  case upload p =>
    fun_cases uploadStep cfg s p ch <;> first | exact of_none | apply of_some
    all_goals exact ⟨.inl, .inl, .inl⟩
  case cleanup p =>
    fun_cases cleanupStep s p ch <;> first | exact of_none | apply of_some
    all_goals first
      | exact ⟨.inl, .inl, .inl⟩
      | exact ⟨fun _ => .inr ⟨_, rfl⟩, .inl, .inl⟩
      | (rw [gates_iff, Shared.releaseArc_control, Shared.releaseArc_native]
         exact ⟨.inl, .inl, .inl⟩)
  case execute p =>
    fun_cases executeStep s p ch <;> first | exact of_none | apply of_some
    all_goals exact ⟨.inl, .inl, .inl⟩

/-! ## The invariant -/

/-- Cronet reports every redirect before the response, and the response only when each of
them was followed. -/
def ReportsInTurn : Policy Shared Thread Choice := fun c _ ch =>
  (∀ info location, ch = .submit (.redirectReceived info location) →
    c.shared.native.responded = false) ∧
  ∀ info, ch = .submit (.responseStarted info) →
    ∀ u ∈ c.threads, u.redirecting = 0 ∧ u.fails = 0

/-- What is documented of Cronet's reads and of the order of its callbacks. -/
def RightContract : Policy Shared Thread Choice := fun c t ch =>
  AnswersReads c t ch ∧ ReportsInTurn c t ch

/-- `on_response_started` has begun. -/
def Responding (tr : List Event) : Prop := ∃ e ∈ tr, e.responds = true

/-- The request is over, or about to be: no use of the right is left. -/
def Over (s : Shared) : Prop := .cancel ∈ s.trace ∨ s.native.terminalBegun = true

/-- The reads and their completions take turns. -/
structure RightInv (c : Config Shared Thread) : Prop where
  /-- The rights and the reads are as many as the completions, and one for the response. -/
  right : c.shared.trace.countP Event.accepts + (!c.shared.native.responded).toNat +
    total Thread.responding c.threads + total Thread.right c.threads +
    total Thread.givesUp c.threads ≤ c.shared.trace.countP Event.completes + 1
  /-- No read is completed twice. -/
  answers : c.shared.trace.countP Event.completes + c.shared.native.reading.isSome.toNat +
    total Thread.completing c.threads ≤ c.shared.trace.countP Event.accepts
  /-- At most one party has the right. -/
  holds : c.shared.native.responded = true →
    c.shared.trace.countP Event.accepts + total Thread.responding c.threads +
      total Thread.holds c.threads + total Thread.redirecting c.threads ≤
    c.shared.trace.countP Event.completes + 1
  /-- A response comes from a request that was started. -/
  submitted : c.shared.native.responded = true → c.shared.native.submitted = true
  /-- A response that has started was submitted. -/
  responding : Responding c.shared.trace → c.shared.native.responded = true
  /-- At least one has it, as long as it is of use. -/
  kept : Responding c.shared.trace → Over c.shared ∨
    c.shared.trace.countP Event.completes + 1 ≤
      c.shared.trace.countP Event.accepts + total Thread.holds c.threads
  /-- `done` comes from a terminal callback. -/
  done : c.shared.control.done = true → c.shared.native.terminalBegun = true
  /-- The pointer of a request that runs is there. -/
  raw : c.shared.control.raw = false →
    c.shared.native.terminalBegun = true ∨ c.shared.native.Silent

theorem total_holds (m : Multiset Thread) :
    total Thread.holds m =
      total Thread.right m + total Thread.givesUp m + total Thread.fails m := by
  induction m using Multiset.induction with
  | empty => rfl
  | cons t m ih =>
    simp only [total_cons, ih, Thread.holds]
    omega

theorem rightInv_init : RightInv start.config where
  right := Nat.le_refl 1
  answers := Nat.le_refl 0
  holds := by simp [start, Listed.config]
  submitted := by simp [start, Listed.config]
  responding := by simp [start, Listed.config, Responding]
  kept := by simp [start, Listed.config, Responding]
  done := by simp [start, Listed.config]
  raw := by simp [start, Listed.config, Native.Silent]

/-- Only what Cronet hands over changes what it has reported. -/
theorem responded_kept (h : step cfg s t ch = some (s', ts)) :
    s'.native.responded = s.native.responded ∨
      ∃ r, ch = .submit r ∧ s' = { s with native := s.native.submit r } := by
  revert h
  cases t <;> simp only [step]
  case outside who =>
    fun_cases outsideStep s who ch <;> first | exact of_none | apply of_some
    all_goals first
      | exact .inl rfl
      | exact .inr ⟨_, rfl, rfl⟩
  case start p =>
    fun_cases startStep s p ch <;> first | exact of_none | apply of_some
    all_goals exact .inl rfl
  case shutdown p =>
    fun_cases shutdownStep s p ch <;> first | exact of_none | apply of_some
    all_goals exact .inl rfl
  case control p =>
    fun_cases controlStep s p ch <;> first | exact of_none | apply of_some
    all_goals exact .inl rfl
  case runnable stage r =>
    fun_cases runnableStep s stage r ch <;> first | exact of_none | apply of_some
    all_goals exact .inl (by simp)
  case callback p =>
    fun_cases callbackStep cfg s p ch <;> first | exact of_none | (apply of_some; exact .inl rfl)
  case read p =>
    fun_cases readStep s p ch <;> first | exact of_none | apply of_some
    all_goals exact .inl (by simp)
  case terminal p =>
    fun_cases terminalStep s p ch <;> first | exact of_none | apply of_some
    all_goals exact .inl rfl
  case task p =>
    fun_cases taskStep cfg s p ch <;> first | exact of_none | apply of_some
    all_goals exact .inl (by simp)
  case upload p =>
    fun_cases uploadStep cfg s p ch <;> first | exact of_none | apply of_some
    all_goals exact .inl rfl
  case cleanup p =>
    fun_cases cleanupStep s p ch <;> first | exact of_none | (apply of_some; exact .inl (by simp))
  case execute p =>
    fun_cases executeStep s p ch <;> first | exact of_none | apply of_some
    all_goals exact .inl rfl

theorem responded_mono (h : step cfg s t ch = some (s', ts)) (hold : s.native.responded = true) :
    s'.native.responded = true := by
  rcases responded_kept h with hsame | ⟨r, rfl, rfl⟩
  · rw [hsame, hold]
  · cases r with
    | responseStarted info => rfl
    | _ => exact hold

/-- The response is reported by Cronet. -/
theorem step_responded (h : step cfg s t ch = some (s', ts))
    (hnew : s'.native.responded = true) (hold : s.native.responded = false) :
    ∃ info, ch = .submit (.responseStarted info) ∧ s'.native.submitted = true := by
  rcases responded_kept h with hsame | ⟨r, rfl, rfl⟩
  · rw [hsame, hold] at hnew
    cases hnew
  · cases r with
    | responseStarted info => exact ⟨info, rfl, rfl⟩
    | _ =>
      have hnew' : s.native.responded = true := hnew
      rw [hold] at hnew'
      cases hnew'

theorem RightInv.right_step (hi : RightInv ⟨s, t ::ₘ rest⟩) (hg : Granted s t ch s' ts) :
    s'.trace.countP Event.accepts + (!s'.native.responded).toNat +
      total Thread.responding ((ts : Multiset Thread) + rest) +
      total Thread.right ((ts : Multiset Thread) + rest) +
      total Thread.givesUp ((ts : Multiset Thread) + rest) ≤
    s'.trace.countP Event.completes + 1 := by
  have hbefore := hi.right
  have hstep := hg.right
  simp only [total_cons] at hbefore
  simp only [total_add, total_coe]
  omega

theorem RightInv.answers_step (hi : RightInv ⟨s, t ::ₘ rest⟩) (hg : Granted s t ch s' ts) :
    s'.trace.countP Event.completes + s'.native.reading.isSome.toNat +
      total Thread.completing ((ts : Multiset Thread) + rest) ≤
    s'.trace.countP Event.accepts := by
  have hbefore := hi.answers
  have hstep := hg.answers
  simp only [total_cons] at hbefore
  simp only [total_add, total_coe]
  omega

theorem RightInv.holds_step (hi : RightInv ⟨s, t ::ₘ rest⟩) (hg : Granted s t ch s' ts)
    (h : step cfg s t ch = some (s', ts))
    (hpolicy : RightContract ⟨s, t ::ₘ rest⟩ t ch) (hresponded : s'.native.responded = true) :
    s'.trace.countP Event.accepts + total Thread.responding ((ts : Multiset Thread) + rest) +
      total Thread.holds ((ts : Multiset Thread) + rest) +
      total Thread.redirecting ((ts : Multiset Thread) + rest) ≤
    s'.trace.countP Event.completes + 1 := by
  obtain ⟨⟨hresponse, -⟩, hredirect, hturn⟩ := hpolicy
  have hstep := hg.holds
  simp only [total_add, total_coe]
  cases hold : s.native.responded with
  | true =>
    have hbefore := hi.holds hold
    simp only [total_cons] at hbefore
    -- Cronet reports nothing more
    have hreports : ch.reports = 0 := by
      cases ch with
      | submit r =>
        cases r with
        | redirectReceived info location =>
          have hnot : s.native.responded = false := hredirect info location rfl
          rw [hold] at hnot
          cases hnot
        | responseStarted info =>
          have hnot : s.native.responded = false := hresponse info rfl
          rw [hold] at hnot
          cases hnot
        | _ => rfl
      | _ => rfl
    omega
  | false =>
    obtain ⟨info, rfl, -⟩ := step_responded h hresponded hold
    have hnone := hturn info rfl
    have hredirecting : total Thread.redirecting (t ::ₘ rest) = 0 :=
      total_eq_zero.mpr fun u hu => (hnone u hu).1
    have hfails : total Thread.fails (t ::ₘ rest) = 0 :=
      total_eq_zero.mpr fun u hu => (hnone u hu).2
    have hbefore := hi.right
    have hanswers := hi.answers
    have hholds := total_holds (t ::ₘ rest)
    rw [hold, Bool.not_false, Bool.toNat_true] at hbefore
    simp only [total_cons] at hbefore hredirecting hfails hholds
    have hone : (Choice.submit (.responseStarted info)).reports = 1 := rfl
    simp only at hanswers
    omega

/-- The gate refuses only when the terminal callback has begun. -/
theorem RightInv.refused (hi : RightInv c) (hresponding : Responding c.shared.trace)
    (h : c.shared.control.raw = false ∨ c.shared.control.done = true) :
    c.shared.native.terminalBegun = true := by
  rcases h with hraw | hdone
  · rcases hi.raw hraw with hbegun | hsilent
    · exact hbegun
    · have hsubmitted := hi.submitted (hi.responding hresponding)
      rw [hsilent.2] at hsubmitted
      cases hsubmitted
  · exact hi.done hdone

theorem RightInv.responding_step (hi : RightInv ⟨s, t ::ₘ rest⟩)
    (h : step cfg s t ch = some (s', ts)) (hresponding : Responding s'.trace) :
    Responding s.trace ∨ ∃ info, t = .runnable .running (.responseStarted info) ∧
      ts = [.runnable .entered (.responseStarted info)] ∧
      s'.native.responded = s.native.responded ∧
      s'.trace = s.trace ++ [.callbackBegun (.responseStarted info)] := by
  obtain ⟨e, he, hresponds⟩ := hresponding
  rcases step_event h with heq | ⟨e', heq, hcause⟩
  · exact .inl ⟨e, heq ▸ he, hresponds⟩
  · rw [heq, List.mem_append, List.mem_singleton] at he
    rcases he with he | rfl
    · exact .inl ⟨e, he, hresponds⟩
    · cases e with
      | callbackBegun r =>
        cases r with
        | responseStarted info =>
          obtain rfl : t = .runnable .running (.responseStarted info) := hcause
          by_cases hgo : ch = .go
          · subst hgo
            cases h
            exact .inr ⟨info, rfl, rfl, rfl, rfl⟩
          · obtain ⟨rfl, -⟩ := running_skips h hgo
            exact absurd (List.self_eq_append_right.mp heq) (List.cons_ne_nil _ _)
        | _ => cases hresponds
      | _ => cases hresponds

theorem Over.step (h : Over s) (hf : Frame s t s') : Over s' :=
  h.imp (fun hmem => hf.trace.subset hmem) hf.terminalBegun

theorem RightInv.kept_step (hi : RightInv ⟨s, t ::ₘ rest⟩)
    (h : step cfg s t ch = some (s', ts)) (hkeeps : Keeps s t s' ts)
    (hresponding : Responding s'.trace) : Over s' ∨
      s'.trace.countP Event.completes + 1 ≤
        s'.trace.countP Event.accepts + total Thread.holds ((ts : Multiset Thread) + rest) := by
  simp only [total_add, total_coe]
  rcases hi.responding_step h hresponding with hbefore | ⟨info, rfl, rfl, -, htrace⟩
  · rcases hi.kept hbefore with hover | hkept
    · exact .inl (hover.step (step_frame h))
    · simp only [total_cons] at hkept
      cases hkeeps with
      | cancels heq =>
        refine .inl (.inl ?_)
        rw [heq]
        exact List.mem_append_right _ (List.mem_singleton_self _)
      | refused hgate =>
        exact .inl (.inr ((step_frame h).terminalBegun (hi.refused hbefore hgate)))
      | kept hstep =>
        right
        omega
  · -- the callback that starts is the first to have it
    right
    have hanswers := hi.answers
    have hcompletes : s'.trace.countP Event.completes = s.trace.countP Event.completes := by
      rw [htrace, List.countP_append]
      rfl
    have haccepts : s'.trace.countP Event.accepts = s.trace.countP Event.accepts := by
      rw [htrace, List.countP_append]
      rfl
    have hone : ([Thread.runnable .entered (.responseStarted info)].map Thread.holds).sum = 1 := rfl
    simp only at hanswers
    omega

theorem rightInv_step (hl : LifetimeInv c) (hst : StartupInv c) (hi : RightInv c)
    (hs : Step (step cfg) RightContract c c') : RightInv c' := by
  obtain ⟨hpolicy, hn⟩ := hs
  rename_i s s' t ts rest ch
  have hmem : t ∈ t ::ₘ rest := Multiset.mem_cons_self t rest
  have hframe := step_frame hn
  have hgates := step_gates hn
  have hmoves : Moves s t ch s' ts := step_moves hn hpolicy.1.1 hpolicy.1.2
  have hg : Granted s t ch s' ts := hmoves.granted
  refine ⟨hi.right_step hg, hi.answers_step hg, hi.holds_step hg hn hpolicy, ?_, ?_,
    hi.kept_step hn hmoves.keeps, ?_, ?_⟩
  · intro hnew
    cases hold : s.native.responded with
    | true => exact hframe.submitted (hi.submitted hold)
    | false =>
      obtain ⟨-, -, hsubmitted⟩ := step_responded hn hnew hold
      exact hsubmitted
  · intro hresponding
    rcases hi.responding_step hn hresponding with hbefore | ⟨info, rfl, rfl, hsame, -⟩
    · exact responded_mono hn (hi.responding hbefore)
    · have hbefore := hi.right
      have hanswers := hi.answers
      simp only [total_cons] at hbefore
      have hone : (Thread.runnable .running (.responseStarted info)).responding = 1 := rfl
      show s'.native.responded = true
      rw [hsame]
      cases hold : s.native.responded with
      | true => rfl
      | false =>
        rw [hold, Bool.not_false, Bool.toNat_true] at hbefore
        simp only at hanswers
        omega
  · intro hdone
    rcases hgates.done hdone with hbefore | ⟨fallback, rfl⟩
    · exact hframe.terminalBegun (hi.done hbefore)
    · exact hframe.terminalBegun (hl.sound _ hmem)
  · intro hraw
    rcases hgates.raw hraw with hbefore | ⟨why, rfl⟩
    · rcases hi.raw hbefore with hbegun | hsilent
      · exact .inl (hframe.terminalBegun hbegun)
      · rcases hgates.silent hsilent with hsilent' | rfl
        · exact .inr hsilent'
        · -- the native start finds the pointer set
          have hset : s.control.raw = true := (hst.stands _ hmem).1.2
          rw [hbefore] at hset
          cases hset
    · have hsound : why.Sound s ∧ why.Done s.control := hl.sound _ hmem
      rcases hsound.1.quiesced_or_silent with hquiesced | hsilent
      · exact .inl (hframe.terminalBegun (hl.signals.quiesced hquiesced).1.1)
      · rcases hgates.silent hsilent with hsilent' | hstart
        · exact .inr hsilent'
        · cases hstart

theorem rightInv_reachable (h : Reachable (step cfg) RightContract start.config c) :
    RightInv c := by
  induction h with
  | refl => exact rightInv_init
  | tail hr hs ih =>
    exact rightInv_step (lifetimeInv_reachable hr) (startupInv_reachable hr) ih hs

/-! ## One holder -/

/-- How many parties have the right to read. -/
def holders (c : Config Shared Thread) : Nat :=
  outstanding c.shared.trace + total Thread.holds c.threads

/-- Where the right to read is. -/
structure RightToRead (c : Config Shared Thread) : Prop where
  /-- From the start of `on_response_started` to that of the terminal callback. -/
  one : Responding c.shared.trace → c.shared.native.terminalBegun = false →
    .cancel ∈ c.shared.trace ∨ holders c = 1
  /-- Two reads are never outstanding together. -/
  reads : outstanding c.shared.trace ≤ 1

/-- **The right to read is nobody's twice and never lost.** -/
theorem right_to_read (h : Reachable (step cfg) RightContract start.config c) :
    RightToRead c := by
  have hi := rightInv_reachable h
  have hanswers := hi.answers
  refine ⟨?_, ?_⟩
  · intro hresponding hbegun
    rcases hi.kept hresponding with (hcancel | hover) | hkept
    · exact .inl hcancel
    · rw [hover] at hbegun
      cases hbegun
    · right
      have hholds := hi.holds (hi.responding hresponding)
      rw [holders, outstanding]
      omega
  · have hright := hi.right
    rw [outstanding]
    omega

/-- `ReportsInTurn` as a test. -/
def reportsInTurn (c : Listed Shared Thread) : Choice → Bool
  | .submit (.redirectReceived _ _) => !c.shared.native.responded
  | .submit (.responseStarted _) =>
    c.threads.all fun u => u.redirecting = 0 && u.fails = 0
  | _ => true

/-- `RightContract` as a test. -/
def rightContract (c : Listed Shared Thread) (_ : Thread) (ch : Choice) : Bool :=
  answersReads c ch && reportsInTurn c ch

theorem rightContract_sound (c : Listed Shared Thread) (t : Thread) (ch : Choice)
    (h : rightContract c t ch = true) : RightContract c.config t ch := by
  rw [rightContract, Bool.and_eq_true] at h
  obtain ⟨hreads, hturn⟩ := h
  refine ⟨answersReads_sound c t ch hreads, ?_, ?_⟩
  · rintro info location rfl
    exact Bool.not_eq_true' _ |>.mp hturn
  · rintro info rfl u hu
    have hnone := List.all_eq_true.mp hturn u (Multiset.mem_coe.mp hu)
    rw [Bool.and_eq_true, decide_eq_true_eq, decide_eq_true_eq] at hnone
    exact hnone

/-- The first completion has begun. -/
def firstCompletion : Schedule :=
  readsFirst ++ [(.read (.returned .callback 0 none), go 4)] ++ completes

theorem right_to_read_completes :
    .cancel ∉ (Pool.play (step {}) rightContract start firstCompletion).config.shared.trace ∧
    holders (Pool.play (step {}) rightContract start firstCompletion).config = 1 := by
  have hstate : .cancel ∉
        (Pool.play (step {}) rightContract start firstCompletion).config.shared.trace ∧
      Responding (Pool.play (step {}) rightContract start firstCompletion).config.shared.trace ∧
      (Pool.play (step {}) rightContract start
        firstCompletion).config.shared.native.terminalBegun = false := by
    unfold Responding
    decide +kernel
  have hright := right_to_read
    (c := (Pool.play (step {}) rightContract start firstCompletion).config)
    (play_reachable rightContract_sound firstCompletion Reachable.start)
  rcases hright.one hstate.2.1 hstate.2.2 with hcancel | hone
  · exact absurd hcancel hstate.1
  · exact ⟨hstate.1, hone⟩

end TokioCronet.Request
