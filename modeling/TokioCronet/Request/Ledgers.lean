import TokioCronet.Request.Machine

/-!
# What the threads of a request hold

The gate of `RequestControl`, callback leases, and the one `NativeRequest` that
`start_request` makes and either hands to the cleanup task or drops itself.
-/

namespace TokioCronet.Request

open Pool

variable {cfg : Settings} {s s' : Shared} {t u : Thread} {ch : Choice} {ts : List Thread}

/-! ## Weights -/

/-- Whether the call of `Read` holds the gate. -/
def Site.gate : Site → Nat
  | .gated _ => 1
  | _ => 0

/-- Whether the call of `Read` holds a lease. -/
def Site.lease : Site → Nat
  | .gated _ => 0
  | _ => 1

/-- Whether the runnable holds a lease. -/
def Runnable.lease (r : Runnable) : Nat := r.leases.toNat

/-- Whether the operation holds a lease. -/
def GatedOp.lease : GatedOp → Nat
  | .followRedirect .callback => 1
  | _ => 0

/-- Which gated operations own the native request. -/
def GatedOp.owner : GatedOp → Nat
  | .cancel .registering | .cancel .started => 1
  | _ => 0

/-- Locks of `RequestControl::gate`. -/
def Thread.gate : Thread → Nat
  | .control (.raw _) | .control (.done _) | .control (.call _) | .control (.unlock _ _)
  | .cleanup (.raw _) | .cleanup (.destroy _) | .cleanup (.unlock _) => 1
  | .read (.call site _) | .read (.returned site _ _) | .read (.record site _)
  | .read (.cancel site) => site.gate
  | _ => 0

/-- `CallbackLease`s: from the `fetch_add` at the start of a callback to the
`fetch_sub` at its end. -/
def Thread.lease : Thread → Nat
  | .callback .notify => 0
  | .callback _ | .terminal _ | .read .unlockHeaders => 1
  | .read (.call site _) | .read (.returned site _ _) | .read (.record site _)
  | .read (.cancel site) => site.lease
  | .control (.lock op) | .control (.raw op) | .control (.done op) | .control (.call op)
  | .control (.unlock op _) => op.lease
  | _ => 0

/-- The `NativeRequest`: `start_request` on its way to it or with it in hand, and
the cleanup task until the native request is destroyed. -/
def Thread.owner : Thread → Nat
  | .start (.returned _) => 0
  | .start _ => 1
  | .control (.store who) => (GatedOp.cancel who).owner
  | .control (.lock op) | .control (.raw op) | .control (.done op) | .control (.call op)
  | .control (.unlock op _) => op.owner
  | .cleanup (.unlock _) | .cleanup (.buffer _) | .cleanup (.context _) => 0
  | .cleanup _ => 1
  | _ => 0

/-- Work that the native side has started: runnables, callbacks and uploads. -/
def Thread.work : Thread → Nat
  | .runnable _ _ | .upload _ => 1
  | t => t.lease

/-- What one step does to the ledgers. -/
structure Balance (s : Shared) (t : Thread) (s' : Shared) (ts : List Thread) : Prop where
  /-- The gate is locked by one thread. -/
  gate : t.gate ≤ s.control.gate.toNat →
    s'.control.gate.toNat + t.gate = s.control.gate.toNat + (ts.map Thread.gate).sum
  /-- `callback_count` counts the leases. -/
  lease : t.lease ≤ s.context.callbackCount →
    s'.context.callbackCount + t.lease = s.context.callbackCount + (ts.map Thread.lease).sum
  /-- The native request is destroyed by its owner. -/
  owner : s'.trace.count .destroy + (ts.map Thread.owner).sum ≤
    s.trace.count .destroy + t.owner
  /-- Work comes from the native side. -/
  work : s'.native.submitted = false → (ts.map Thread.work).sum ≤ t.work

section Helpers

variable (op : GatedOp) (site : Site) (r : Runnable) (e : Option Error)

@[simp] theorem after_gate : ((op.after e).map Thread.gate).sum = 0 := by
  fun_cases GatedOp.after op e <;> rfl

@[simp] theorem after_lease : ((op.after e).map Thread.lease).sum = op.lease := by
  fun_cases GatedOp.after op e <;> rfl

@[simp] theorem after_owner : ((op.after e).map Thread.owner).sum = op.owner := by
  fun_cases GatedOp.after op e <;> rfl

@[simp] theorem after_work : ((op.after e).map Thread.work).sum = op.lease := by
  fun_cases GatedOp.after op e <;> rfl

@[simp] theorem leave_gate : (site.leave.map Thread.gate).sum = site.gate := by
  cases site <;> rfl

@[simp] theorem leave_lease : (site.leave.map Thread.lease).sum = site.lease := by
  cases site <;> rfl

@[simp] theorem leave_owner : (site.leave.map Thread.owner).sum = 0 := by
  cases site <;> rfl

@[simp] theorem leave_work : (site.leave.map Thread.work).sum = site.lease := by
  cases site <;> rfl

@[simp] theorem callback_gate : r.callback.gate = 0 := by
  cases r <;> rfl

@[simp] theorem callback_lease : r.callback.lease = r.lease := by
  cases r <;> rfl

@[simp] theorem callback_owner : r.callback.owner = 0 := by
  cases r <;> rfl

@[simp] theorem callback_work : r.callback.work = 1 := by
  cases r <;> rfl

@[simp] theorem submit_submitted (n : Native) : (n.submit r).submitted = true := by
  cases r <;> rfl

end Helpers

/-! ## One step -/

attribute [local simp] Thread.gate Thread.lease Thread.owner Thread.work GatedOp.lease
  GatedOp.owner Site.gate Site.lease Runnable.lease refuse

theorem outsideStep_balance {who : Outside} (h : outsideStep s who ch = some (s', ts)) :
    Balance s (.outside who) s' ts := by
  revert h
  fun_cases outsideStep s who ch <;> first | exact of_none | (apply of_some; constructor <;> simp)

theorem startStep_balance {p : Start} (h : startStep s p ch = some (s', ts)) :
    Balance s (.start p) s' ts := by
  revert h
  fun_cases startStep s p ch <;> first | exact of_none | (apply of_some; constructor <;> simp)

theorem shutdownStep_balance {p : Shutdown} (h : shutdownStep s p ch = some (s', ts)) :
    Balance s (.shutdown p) s' ts := by
  revert h
  fun_cases shutdownStep s p ch <;> first | exact of_none | (apply of_some; constructor <;> simp)

theorem controlStep_balance {p : Control} (h : controlStep s p ch = some (s', ts)) :
    Balance s (.control p) s' ts := by
  have hgate := Bool.toNat_le s.control.gate
  revert h
  fun_cases controlStep s p ch <;> first | exact of_none | apply of_some
  all_goals constructor <;> simp_all
  omega

theorem runnableStep_balance {stage : Stage} {r : Runnable}
    (h : runnableStep s stage r ch = some (s', ts)) : Balance s (.runnable stage r) s' ts := by
  revert h
  fun_cases runnableStep s stage r ch <;> first | exact of_none | apply of_some
  all_goals constructor <;> cases r <;>
    simp_all [Runnable.leases, Runnable.callback]

theorem callbackStep_balance {p : Callback} (h : callbackStep cfg s p ch = some (s', ts)) :
    Balance s (.callback p) s' ts := by
  revert h
  fun_cases callbackStep cfg s p ch <;> first | exact of_none | apply of_some
  all_goals constructor <;> simp_all

theorem readStep_balance {p : Read} (h : readStep s p ch = some (s', ts)) :
    Balance s (.read p) s' ts := by
  revert h
  fun_cases readStep s p ch <;> first | exact of_none | (apply of_some; constructor <;> simp)

theorem terminalStep_balance {p : Terminal} (h : terminalStep s p ch = some (s', ts)) :
    Balance s (.terminal p) s' ts := by
  revert h
  fun_cases terminalStep s p ch <;> first | exact of_none | (apply of_some; constructor <;> simp)

theorem taskStep_balance {p : Task} (h : taskStep cfg s p ch = some (s', ts)) :
    Balance s (.task p) s' ts := by
  revert h
  fun_cases taskStep cfg s p ch <;> first | exact of_none | (apply of_some; constructor <;> simp)

theorem uploadStep_balance {p : Upload} (h : uploadStep cfg s p ch = some (s', ts)) :
    Balance s (.upload p) s' ts := by
  revert h
  fun_cases uploadStep cfg s p ch <;> first | exact of_none | (apply of_some; constructor <;> simp)

theorem cleanupStep_balance {p : Cleanup} (h : cleanupStep s p ch = some (s', ts)) :
    Balance s (.cleanup p) s' ts := by
  have hgate := Bool.toNat_le s.control.gate
  revert h
  fun_cases cleanupStep s p ch <;> first | exact of_none | apply of_some
  all_goals constructor <;> simp_all
  omega

theorem executeStep_balance {p : Execute} (h : executeStep s p ch = some (s', ts)) :
    Balance s (.execute p) s' ts := by
  revert h
  fun_cases executeStep s p ch <;> first | exact of_none | (apply of_some; constructor <;> simp)

/-- **Every step keeps the ledgers balanced.** -/
theorem step_balance (h : step cfg s t ch = some (s', ts)) : Balance s t s' ts := by
  cases t with
  | outside who => exact outsideStep_balance h
  | start p => exact startStep_balance h
  | shutdown p => exact shutdownStep_balance h
  | control p => exact controlStep_balance h
  | runnable stage r => exact runnableStep_balance h
  | callback p => exact callbackStep_balance h
  | read p => exact readStep_balance h
  | terminal p => exact terminalStep_balance h
  | task p => exact taskStep_balance h
  | upload p => exact uploadStep_balance h
  | cleanup p => exact cleanupStep_balance h
  | execute p => exact executeStep_balance h

/-! ## Events -/

/-- Which step an event comes from. -/
def Event.Cause (s : Shared) (t : Thread) : Event → Prop
  | .init => t = .start .init
  | .start => t = .start .start
  | .started => t = .start .startReturn
  | .read b _ => ∃ site, t = .read (.call site b)
  | .cancel => (∃ who, t = .control (.call (.cancel who))) ∨ ∃ site, t = .read (.cancel site)
  | .followRedirect => ∃ who, t = .control (.call (.followRedirect who))
  | .getStatus => t = .control (.call .status)
  | .destroy => ∃ why, t = .cleanup (.destroy why)
  | .runnableStarted r => t = .runnable .queued r
  | .callbackBegun r => t = .runnable .running r
  | .quiesced => t = .cleanup .count ∧ s.context.callbackCount = 0
  | .bufferCreated b => t = .callback .allocate ∧ b = s.native.buffers.length
  | .bufferDestroyed b =>
    t = .outside .cronet ∧ s.native.buffers[b]? = some .cronet ∨
    (∃ why, t = .cleanup (.buffer why)) ∧ s.context.state.buffer = some b
  | .sink op _ => ∃ p, t = .upload p ∧ p ≠ .panicked op
  | .cancelRead requested => t = .start .loadCancel ∧ requested = s.control.cancelRequested
  | .recorded e =>
    (∃ site, t = .read (.record site e)) ∨ (∃ sender, t = .task (.record sender e)) ∨
    ∃ op, t = .upload (.locked op (.error e))
  | .done => ∃ fallback, t = .terminal (.done fallback)
  | .consumed fallback e =>
    t = .terminal (.take fallback) ∧ e = s.context.requestError.or fallback
  | .responseHeaders info => t = .callback (.headers info) ∧ s.context.headersSender = true
  | .terminalHeaders e =>
    s.context.headersSender = true ∧
    ∃ error, t = .terminal (.headers error) ∧ e = error.getD .callbackChannelClosed
  | .pushed chunk => ∃ b, t = .task (.send b chunk)
  | .bodyError e => t = .task (.sendError e)

/-- **A step causes at most one event.** -/
theorem step_event (h : step cfg s t ch = some (s', ts)) :
    s'.trace = s.trace ∨ ∃ e, s'.trace = s.trace ++ [e] ∧ e.Cause s t := by
  revert h
  cases t <;> simp only [step]
  case outside who =>
    fun_cases outsideStep s who ch <;> first | exact of_none | apply of_some
    all_goals first
      | exact .inl rfl
      | exact .inr ⟨_, rfl, by simp_all [Event.Cause]⟩
  case start p =>
    fun_cases startStep s p ch <;> first | exact of_none | apply of_some
    all_goals first
      | exact .inl rfl
      | exact .inr ⟨_, rfl, by simp_all [Event.Cause]⟩
  case shutdown p =>
    fun_cases shutdownStep s p ch <;> first | exact of_none | (apply of_some; exact .inl rfl)
  case control p =>
    fun_cases controlStep s p ch <;> first | exact of_none | apply of_some
    all_goals first
      | exact .inl rfl
      | exact .inr ⟨_, rfl, by simp_all [Event.Cause]⟩
  case runnable stage r =>
    fun_cases runnableStep s stage r ch <;> first | exact of_none | apply of_some
    all_goals first
      | exact .inl rfl
      | exact .inr ⟨_, rfl, by simp_all [Event.Cause]⟩
  case callback p =>
    fun_cases callbackStep cfg s p ch <;> first | exact of_none | apply of_some
    all_goals first
      | exact .inl rfl
      | exact .inr ⟨_, rfl, by simp_all [Event.Cause]⟩
  case read p =>
    fun_cases readStep s p ch <;> first | exact of_none | apply of_some
    all_goals first
      | exact .inl rfl
      | exact .inr ⟨_, rfl, by simp_all [Event.Cause]⟩
  case terminal p =>
    fun_cases terminalStep s p ch <;> first | exact of_none | apply of_some
    all_goals first
      | exact .inl rfl
      | exact .inr ⟨_, rfl, by simp_all [Event.Cause]⟩
  case task p =>
    fun_cases taskStep cfg s p ch <;> first | exact of_none | apply of_some
    all_goals first
      | exact .inl rfl
      | exact .inl (Shared.releaseArc_trace s)
      | exact .inr ⟨_, rfl, by simp_all [Event.Cause]⟩
  case upload p =>
    fun_cases uploadStep cfg s p ch <;> first | exact of_none | apply of_some
    all_goals first
      | exact .inl rfl
      | exact .inr ⟨_, rfl, by simp_all [Event.Cause]⟩
  case cleanup p =>
    fun_cases cleanupStep s p ch <;> first | exact of_none | apply of_some
    all_goals first
      | exact .inl rfl
      | exact .inl (Shared.releaseArc_trace s)
      | exact .inr ⟨_, rfl, by simp_all [Event.Cause]⟩
  case execute p =>
    fun_cases executeStep s p ch <;> first | exact of_none | (apply of_some; exact .inl rfl)

/-- A runnable that is not run leaves nothing behind. -/
theorem running_skips {r : Runnable} (h : step cfg s (.runnable .running r) ch = some (s', ts))
    (hgo : ch ≠ .go) : s' = s ∧ ts = [] := by
  cases ch <;> simp_all [step, runnableStep]

end TokioCronet.Request
