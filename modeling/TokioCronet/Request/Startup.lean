import TokioCronet.Request.Lifetime

/-!
# Starting against a shutdown

`Engine::shutdown` cancels every request it finds registered; `start_request` may be
anywhere between `begin_operation` and the recording of its success. Three
mechanisms share the windows: `closing` is read again inside `register`, a cancel
that comes too early is remembered in `cancel_requested`, and `start_request` reads
that flag once the native start has returned.
-/

namespace TokioCronet.Request

open Pool

variable {cfg : Settings} {s s' : Shared} {t u : Thread} {ch : Choice} {ts : List Thread}

/-! ## Annotations -/

/-- A cancel has been issued after the native start, or there is no need for one. -/
def Answered (done : Bool) (tr : List Event) : Prop :=
  done = true ∨ Trace.Follows (· = .started) (· = .cancel) tr

/-- `start_request` has not read `cancel_requested`. -/
def Unread (s : Shared) : Prop := ∀ requested, .cancelRead requested ∉ s.trace

/-- Nothing of the start has happened. -/
def Unstarted (s : Shared) : Prop := (.start ∉ s.trace ∧ .started ∉ s.trace) ∧ Unread s

/-- `start_request` gives up with an error. -/
def Failed (s : Shared) (e : Error) : Prop :=
  (.started ∉ s.trace ∧ Unread s) ∧ (e = .engineShutdown → .start ∉ s.trace)

/-- `start_request` has returned from the native start and read `cancel_requested`. -/
def Begun (s : Shared) : Prop :=
  .started ∈ s.trace ∧ (.cancelRead false ∈ s.trace ∨ Answered s.control.done s.trace)

/-- The cancel of a shutdown is done with this request. -/
def Settled (s : Shared) : Prop :=
  (s.engine.closing = true ∧ s.control.cancelRequested = true) ∧
  (.cancelRead false ∈ s.trace → Answered s.control.done s.trace)

/-- What `start_request` knows where it stands. -/
def Start.Stands (s : Shared) : Start → Prop
  | .load | .admission | .new => Unstarted s
  | .registerPush => Unstarted s ∧ s.control.raw = true
  | .registerLoad | .configure | .init | .start =>
    (Unstarted s ∧ s.control.raw = true) ∧ s.engine.registered = true
  | .startReturn => ((.start ∈ s.trace ∧ .started ∉ s.trace) ∧ Unread s) ∧ s.control.raw = true
  | .loadCancel => (.started ∈ s.trace ∧ Unread s) ∧ s.control.raw = true
  | .spawn | .returned (.ok _) => Begun s
  | .returned (.error e) => Failed s e

/-- What a canceller knows. -/
def Canceler.Stands (s : Shared) : Canceler → Prop
  | .registering => Unstarted s ∧ s.control.raw = true
  | .started => .started ∈ s.trace ∧ s.control.raw = true
  | .shutdown => s.engine.closing = true ∧ s.control.cancelRequested = true
  | _ => True

/-- What a gated operation knows. -/
def GatedOp.Stands (s : Shared) : GatedOp → Prop
  | .cancel who => who.Stands s
  | _ => True

/-- What a thread of the control knows where it stands. -/
def Control.Stands (s : Shared) : Control → Prop
  | .store .shutdown => s.engine.closing = true
  | .store who => who.Stands s
  | .lock op | .raw op | .done op | .call op => op.Stands s
  | .unlock (.cancel .started) _ => Begun s
  | .unlock (.cancel .shutdown) _ => Settled s
  | .unlock op _ => op.Stands s
  | .statusLoad => True

/-- Who drops the native request knows why. -/
def Dropper.Stands (s : Shared) : Dropper → Prop
  | .cleanup => True
  | .failed e => Failed s e

/-- What the cleanup knows where it stands. -/
def Cleanup.Stands (s : Shared) : Cleanup → Prop
  | .drop why | .gate why | .raw why | .destroy why | .unlock why | .buffer why
  | .context why => why.Stands s
  | _ => True

/-- What a thread on its way through a start or a shutdown may rely on. -/
def Stands (s : Shared) : Thread → Prop
  | .start p => p.Stands s
  | .shutdown .snapshot => s.engine.closing = true
  | .control p => p.Stands s
  | .cleanup p => p.Stands s
  | _ => True

/-! ## Weights -/

/-- The call of `start_request` that drops what it made. -/
def Dropper.starter : Dropper → Nat
  | .cleanup => 0
  | .failed _ => 1

/-- Which gated operations belong to the call of `start_request`. -/
def GatedOp.starter : GatedOp → Nat
  | .cancel .registering | .cancel .started => 1
  | _ => 0

/-- The call of `start_request`, wherever it is. -/
def Thread.starter : Thread → Nat
  | .start _ => 1
  | .control (.store who) => (GatedOp.cancel who).starter
  | .control (.lock op) | .control (.raw op) | .control (.done op) | .control (.call op)
  | .control (.unlock op _) => op.starter
  | .cleanup (.drop why) | .cleanup (.gate why) | .cleanup (.raw why) | .cleanup (.destroy why)
  | .cleanup (.unlock why) | .cleanup (.buffer why) | .cleanup (.context why) => why.starter
  | _ => 0

/-- Past `register`, with the native start to come. -/
def Thread.ready : Thread → Nat
  | .start .configure | .start .init | .start .start => 1
  | _ => 0

section Helpers

variable (op : GatedOp) (site : Site) (r : Runnable) (e : Option Error)

@[simp] theorem after_starter : ((op.after e).map Thread.starter).sum = op.starter := by
  fun_cases GatedOp.after op e <;> rfl

@[simp] theorem leave_starter : (site.leave.map Thread.starter).sum = 0 := by
  cases site <;> rfl

@[simp] theorem callback_starter : r.callback.starter = 0 := by
  cases r <;> rfl

@[simp] theorem after_ready : ((op.after e).map Thread.ready).sum = 0 := by
  fun_cases GatedOp.after op e <;> rfl

@[simp] theorem leave_ready : (site.leave.map Thread.ready).sum = 0 := by
  cases site <;> rfl

@[simp] theorem callback_ready : r.callback.ready = 0 := by
  cases r <;> rfl

@[simp] theorem done_mem_after : .shutdown .done ∈ op.after e ↔ op = .cancel .shutdown := by
  fun_cases GatedOp.after op e <;> simp

@[simp] theorem done_notMem_leave : .shutdown .done ∉ site.leave := by
  cases site <;> simp [Site.leave]

end Helpers

/-! ## One step -/

/-- What a step leaves alone, and what it can change once. -/
structure Progress (s : Shared) (t : Thread) (s' : Shared) (ts : List Thread) : Prop where
  /-- No step makes a second call of `start_request`. -/
  starter : (ts.map Thread.starter).sum ≤ t.starter
  /-- After the closing nobody becomes ready to register. -/
  ready : s.engine.closing = true → (ts.map Thread.ready).sum ≤ t.ready
  /-- `closing` is not taken back. -/
  closing : s.engine.closing = true → s'.engine.closing = true
  /-- The registration is not taken back. -/
  registered : s.engine.registered = true → s'.engine.registered = true
  /-- The request to cancel is not taken back. -/
  cancelRequested : s.control.cancelRequested = true → s'.control.cancelRequested = true
  /-- The pointer is set by the start and cleared by the cleanup. -/
  raw : s'.control.raw = s.control.raw ∨ t = .start .new ∧ s'.control.raw = true ∨
    ∃ why, t = .cleanup (.raw why)
  /-- How a shutdown ends its cancellation. -/
  finishes : .shutdown .done ∈ ts →
    t = .shutdown .snapshot ∧ s.engine.registered = false ∧ s' = s ∨
    ∃ e, t = .control (.unlock (.cancel .shutdown) e)

theorem Progress.still (hengine : s'.engine = s.engine) (hcontrol : s'.control = s.control)
    (hstarter : (ts.map Thread.starter).sum = t.starter)
    (hready : (ts.map Thread.ready).sum = t.ready) (hdone : .shutdown .done ∉ ts) :
    Progress s t s' ts where
  starter := hstarter.le
  ready := fun _ => hready.le
  closing := fun h => hengine ▸ h
  registered := fun h => hengine ▸ h
  cancelRequested := fun h => hcontrol ▸ h
  raw := .inl (congrArg RequestControl.raw hcontrol)
  finishes := fun h => absurd h hdone

attribute [local simp] Thread.starter Thread.ready GatedOp.starter Dropper.starter refuse

theorem step_progress (h : step cfg s t ch = some (s', ts)) : Progress s t s' ts := by
  revert h
  cases t <;> simp only [step]
  case outside who =>
    fun_cases outsideStep s who ch <;> first | exact of_none | apply of_some
    all_goals exact .still rfl rfl rfl rfl (by simp)
  case start p =>
    fun_cases startStep s p ch <;> first | exact of_none | apply of_some
    all_goals first
      | exact .still rfl rfl rfl rfl (by simp)
      | (constructor <;> simp_all)
  case shutdown p =>
    fun_cases shutdownStep s p ch <;> first | exact of_none | apply of_some
    all_goals constructor <;> simp_all
  case control p =>
    fun_cases controlStep s p ch <;> first | exact of_none | apply of_some
    all_goals first
      | exact .still rfl rfl rfl rfl (by simp)
      | (constructor <;> simp)
  case runnable stage r =>
    fun_cases runnableStep s stage r ch <;> first | exact of_none | apply of_some
    all_goals cases r <;> exact .still rfl rfl rfl rfl (by simp [Runnable.callback])
  case callback p =>
    fun_cases callbackStep cfg s p ch <;> first | exact of_none | apply of_some
    all_goals exact .still rfl rfl rfl rfl (by simp)
  case read p =>
    fun_cases readStep s p ch <;> first | exact of_none | apply of_some
    all_goals first
      | exact .still rfl rfl rfl rfl (by simp)
      | (constructor <;> simp)
  case terminal p =>
    fun_cases terminalStep s p ch <;> first | exact of_none | apply of_some
    all_goals first
      | exact .still rfl rfl rfl rfl (by simp)
      | (constructor <;> simp)
  case task p =>
    fun_cases taskStep cfg s p ch <;> first | exact of_none | apply of_some
    all_goals first
      | exact .still rfl rfl rfl rfl (by simp)
      | (constructor <;> simp)
  case upload p =>
    fun_cases uploadStep cfg s p ch <;> first | exact of_none | apply of_some
    all_goals exact .still rfl rfl rfl rfl (by simp)
  case cleanup p =>
    fun_cases cleanupStep s p ch <;> first | exact of_none | apply of_some
    all_goals first
      | exact .still rfl rfl rfl rfl (by simp)
      | (constructor <;> simp)
  case execute p =>
    fun_cases executeStep s p ch <;> first | exact of_none | apply of_some
    all_goals exact .still rfl rfl rfl rfl (by simp)

/-- What the trace says of the other fields. -/
@[mk_iff]
structure Readings (s : Shared) : Prop where
  /-- A request that got past its start is cleared only when it is done. -/
  cleared : s.control.raw = false → ¬ Unread s → s.control.done = true
  /-- Who has read the request to cancel was started. -/
  read : ¬ Unread s → .started ∈ s.trace
  /-- A start that has succeeded was made. -/
  started : .started ∈ s.trace → .start ∈ s.trace
  /-- The start comes behind the registration. -/
  start : .start ∈ s.trace → s.engine.registered = true

theorem after_stands {op : GatedOp} {e : Option Error} (h : (Control.unlock op e).Stands s) :
    ∀ u ∈ op.after e, Stands s u := by
  revert h
  fun_cases GatedOp.after op e <;> intro h u hu <;>
    simp only [List.not_mem_nil, List.mem_singleton] at hu <;> subst hu <;> first
    | trivial
    | exact h
    | exact ⟨⟨h.1.1.2, h.1.2⟩, fun _ => h.1.1.1⟩

theorem leave_stands (site : Site) : ∀ u ∈ site.leave, Stands s u := by
  intro u hu
  cases site <;> rw [Site.leave, List.mem_singleton] at hu <;> subst hu <;> trivial

theorem controlStep_stands {p : Control} (h : controlStep s p ch = some (s', ts))
    (ht : p.Stands s) (hr : Readings s) : ∀ u ∈ ts, Stands s' u := by
  revert h ht
  fun_cases controlStep s p ch <;> first | exact of_none | (apply of_some; intro ht)
  case case4 who =>
    refine List.forall_mem_singleton.mpr ?_
    cases who <;> first | exact ht | exact ⟨ht, rfl⟩
  case case8 op hraw =>
    -- the request is gone, or was not started at all
    refine List.forall_mem_singleton.mpr ?_
    cases op with
    | cancel who =>
      cases who with
      | started | registering => exact absurd ht.2 hraw
      | shutdown =>
        refine ⟨ht, fun hread => .inl (hr.cleared (by simpa using hraw) ?_)⟩
        exact fun hunread => hunread false hread
      | _ => trivial
    | _ => trivial
  case case9 op hdone =>
    refine List.forall_mem_singleton.mpr ?_
    cases op with
    | cancel who =>
      cases who with
      | started => exact ⟨ht.1, .inr (.inl hdone)⟩
      | shutdown => exact ⟨ht, fun _ => .inl hdone⟩
      | _ => exact ht
    | _ => trivial
  case case11 who =>
    -- the native cancel
    refine List.forall_mem_singleton.mpr ?_
    cases who with
    | started =>
      exact ⟨List.mem_append_left _ ht.1, .inr (.inr (Trace.follows_of_mem ht.1 rfl rfl))⟩
    | shutdown =>
      refine ⟨ht, fun hread => .inr (Trace.follows_of_mem (hr.read ?_) rfl rfl)⟩
      intro hunread
      exact hunread false (by simpa using hread)
    | registering =>
      simpa [Stands, Control.Stands, GatedOp.Stands, Canceler.Stands, Unstarted, Unread] using ht
    | _ => trivial
  case case15 op e => exact after_stands ht
  all_goals first
    | exact List.forall_mem_nil _
    | exact List.forall_mem_singleton.mpr trivial
    | exact List.forall_mem_singleton.mpr ht

theorem step_stands (h : step cfg s t ch = some (s', ts)) (ht : Stands s t) (hr : Readings s) :
    ∀ u ∈ ts, Stands s' u := by
  revert h ht
  cases t <;> simp only [step]
  case outside who =>
    fun_cases outsideStep s who ch <;> first | exact of_none | (apply of_some; intro ht)
    all_goals first
      | exact List.forall_mem_singleton.mpr trivial
      | simp [Stands, Control.Stands, Canceler.Stands]
  case start p =>
    fun_cases startStep s p ch <;> first | exact of_none | (apply of_some; intro ht)
    all_goals first
      | exact List.forall_mem_singleton.mpr trivial
      | exact List.forall_mem_singleton.mpr ht
      | simp_all [Stands, Start.Stands, Unstarted, Unread, Failed, Begun, Control.Stands,
          Canceler.Stands, Cleanup.Stands, Dropper.Stands, refuse]
  case shutdown p =>
    fun_cases shutdownStep s p ch <;> first | exact of_none | (apply of_some; intro ht)
    all_goals first
      | exact List.forall_mem_singleton.mpr trivial
      | exact List.forall_mem_singleton.mpr ht
      | simp_all [Stands]
  case control p =>
    exact fun h ht => controlStep_stands h ht hr
  case runnable stage r =>
    fun_cases runnableStep s stage r ch <;> first | exact of_none | apply of_some
    all_goals
      intro ht
      cases r
    all_goals first
      | exact List.forall_mem_singleton.mpr trivial
      | simp [Stands]
  case callback p =>
    fun_cases callbackStep cfg s p ch <;> first | exact of_none | (apply of_some; intro ht)
    all_goals first
      | exact List.forall_mem_singleton.mpr trivial
      | simp [Stands, Control.Stands, GatedOp.Stands]
  case read p =>
    fun_cases readStep s p ch <;> first | exact of_none | (apply of_some; intro ht)
    all_goals first
      | exact leave_stands _
      | exact List.forall_mem_singleton.mpr trivial
  case terminal p =>
    fun_cases terminalStep s p ch <;> first | exact of_none | (apply of_some; intro ht)
    all_goals first | exact List.forall_mem_singleton.mpr trivial | simp [Stands]
  case task p =>
    fun_cases taskStep cfg s p ch <;> first | exact of_none | (apply of_some; intro ht)
    all_goals first
      | exact List.forall_mem_singleton.mpr trivial
      | simp [Stands, Control.Stands, GatedOp.Stands, Canceler.Stands]
  case upload p =>
    fun_cases uploadStep cfg s p ch <;> first | exact of_none | (apply of_some; intro ht)
    all_goals first | exact List.forall_mem_singleton.mpr trivial | simp [Stands]
  case cleanup p =>
    fun_cases cleanupStep s p ch <;> first | exact of_none | (apply of_some; intro ht)
    all_goals first
      | exact List.forall_mem_singleton.mpr trivial
      | exact List.forall_mem_singleton.mpr ht
      | simp_all [Stands, Start.Stands, Cleanup.Stands, Dropper.Stands, Control.Stands,
          Canceler.Stands, Failed, Unread, refuse]
  case execute p =>
    fun_cases executeStep s p ch <;> first | exact of_none | (apply of_some; intro ht)
    all_goals first
      | exact List.forall_mem_singleton.mpr trivial
      | simp [Stands, Control.Stands, Canceler.Stands]

/-- An event of the start comes from the call of `start_request`. -/
def Event.starts : Event → Bool
  | .start | .started | .cancelRead _ => true
  | _ => false

theorem starter_of_cause {e : Event} (he : e.starts = true) (h : e.Cause s t) :
    t.starter = 1 ∧ t.owner = 1 := by
  cases e <;> cases he <;> first
    | (cases h; exact ⟨rfl, rfl⟩)
    | (obtain ⟨rfl, -⟩ := h; exact ⟨rfl, rfl⟩)

theorem not_starts_of_step (h : step cfg s t ch = some (s', ts)) (ht : t.starter = 0)
    {e : Event} (he : e.starts = true) (hmem : e ∈ s'.trace) : e ∈ s.trace := by
  rcases step_event h with heq | ⟨e', heq, hcause⟩
  · rw [← heq]
    exact hmem
  · rw [heq, List.mem_append, List.mem_singleton] at hmem
    rcases hmem with hmem | rfl
    · exact hmem
    · rw [(starter_of_cause he hcause).1] at ht
      contradiction

theorem Answered.mono {done done' : Bool} {tr tr' : List Event} (hdone : done = true → done' = true)
    (htr : tr <+: tr') (h : Answered done tr) : Answered done' tr' := by
  obtain ⟨l, rfl⟩ := htr
  rcases h with h | h
  · exact .inl (hdone h)
  · exact .inr (h.append l)

theorem step_readings (h : step cfg s t ch = some (s', ts)) (ht : Stands s t)
    (hsound : Sound s t) (hr : Readings s) : Readings s' := by
  have hframe := step_frame h
  have hprogress := step_progress h
  have hevent := step_event h
  -- what a new event of the start says of the thread that causes it
  have hread : ¬ Unread s' → ¬ Unread s ∨ t = .start .loadCancel := by
    intro hun
    by_contra hnone
    obtain ⟨hun', hne⟩ := not_or.mp hnone
    refine hun ?_
    rcases hevent with heq | ⟨e, heq, hcause⟩
    · rw [Unread, heq]
      exact not_not.mp hun'
    · intro b hb
      rw [heq, List.mem_append, List.mem_singleton] at hb
      rcases hb with hb | rfl
      · exact not_not.mp hun' b hb
      · exact hne hcause.1
  refine ⟨?_, ?_, ?_, ?_⟩
  · intro hraw hun
    have hun' : ¬ Unread s := by
      rcases hread hun with hun | rfl
      · exact hun
      · -- `raw` is still set there
        rcases hprogress.raw with heq | ⟨hnew, -⟩ | ⟨why, hthread⟩
        · rw [heq, ht.2] at hraw
          contradiction
        · cases hnew
        · cases hthread
    rcases hprogress.raw with heq | ⟨-, hset⟩ | ⟨why, rfl⟩
    · rw [heq] at hraw
      exact hframe.done (hr.cleared hraw hun')
    · rw [hset] at hraw
      contradiction
    · cases why with
      | cleanup => exact hframe.done hsound.2
      | failed e => exact absurd ht.1.2 hun'
  · intro hun
    rcases hread hun with hun | rfl
    · exact hframe.trace.subset (hr.read hun)
    · exact hframe.trace.subset ht.1.1
  · intro hstarted
    rcases hevent with heq | ⟨e, heq, hcause⟩
    · rw [heq] at hstarted ⊢
      exact hr.started hstarted
    · rw [heq, List.mem_append, List.mem_singleton] at hstarted
      rcases hstarted with hstarted | rfl
      · exact hframe.trace.subset (hr.started hstarted)
      · cases hcause
        exact hframe.trace.subset ht.1.1.1
  · intro hstart
    rcases hevent with heq | ⟨e, heq, hcause⟩
    · rw [heq] at hstart
      exact hprogress.registered (hr.start hstart)
    · rw [heq, List.mem_append, List.mem_singleton] at hstart
      rcases hstart with hstart | rfl
      · exact hprogress.registered (hr.start hstart)
      · cases hcause
        exact hprogress.registered ht.2

/-! ## The invariant -/

/-- What the others leave of what `u`, the call of `start_request`, relies on. -/
structure Undisturbed (s : Shared) (u : Thread) (s' : Shared) : Prop where
  /-- What the trace says of the start. -/
  starts : ∀ e : Event, e.starts = true → (e ∈ s'.trace ↔ e ∈ s.trace)
  /-- The pointer, while the call is its owner. -/
  raw : u.owner = 1 → s'.control.raw = s.control.raw
  /-- The registration is not taken back. -/
  registered : s.engine.registered = true → s'.engine.registered = true
  /-- What was answered stays answered. -/
  answered : Answered s.control.done s.trace → Answered s'.control.done s'.trace

theorem Undisturbed.unread (h : Undisturbed s u s') (hun : Unread s) : Unread s' :=
  fun b hb => hun b ((h.starts _ rfl).mp hb)

theorem Undisturbed.unstarted (h : Undisturbed s u s') (hun : Unstarted s) : Unstarted s' :=
  ⟨⟨fun hb => hun.1.1 ((h.starts _ rfl).mp hb), fun hb => hun.1.2 ((h.starts _ rfl).mp hb)⟩,
    h.unread hun.2⟩

theorem Undisturbed.failed {e : Error} (h : Undisturbed s u s') (hf : Failed s e) : Failed s' e :=
  ⟨⟨fun hb => hf.1.1 ((h.starts _ rfl).mp hb), h.unread hf.1.2⟩,
    fun he hb => hf.2 he ((h.starts _ rfl).mp hb)⟩

theorem Undisturbed.begun (h : Undisturbed s u s') (hb : Begun s) : Begun s' := by
  refine ⟨(h.starts _ rfl).mpr hb.1, ?_⟩
  rcases hb.2 with hread | hanswered
  · exact .inl ((h.starts _ rfl).mpr hread)
  · exact .inr (h.answered hanswered)

theorem Undisturbed.start {p : Start} (h : Undisturbed s (.start p) s') (hp : p.Stands s) :
    p.Stands s' := by
  cases p with
  | load | admission | new => exact h.unstarted hp
  | registerPush => exact ⟨h.unstarted hp.1, (h.raw rfl).trans hp.2⟩
  | registerLoad | configure | init | start =>
    exact ⟨⟨h.unstarted hp.1.1, (h.raw rfl).trans hp.1.2⟩, h.registered hp.2⟩
  | startReturn =>
    exact ⟨⟨⟨(h.starts _ rfl).mpr hp.1.1.1, fun hb => hp.1.1.2 ((h.starts _ rfl).mp hb)⟩,
      h.unread hp.1.2⟩, (h.raw rfl).trans hp.2⟩
  | loadCancel =>
    exact ⟨⟨(h.starts _ rfl).mpr hp.1.1, h.unread hp.1.2⟩, (h.raw rfl).trans hp.2⟩
  | spawn => exact h.begun hp
  | returned r =>
    cases r with
    | ok _ => exact h.begun hp
    | error e => exact h.failed hp

theorem Undisturbed.registering (h : Undisturbed s u s') (hu : u.owner = 1)
    (hw : Canceler.Stands s .registering) : Canceler.Stands s' .registering :=
  ⟨h.unstarted hw.1, (h.raw hu).trans hw.2⟩

theorem Undisturbed.started (h : Undisturbed s u s') (hu : u.owner = 1)
    (hw : Canceler.Stands s .started) : Canceler.Stands s' .started :=
  ⟨(h.starts _ rfl).mpr hw.1, (h.raw hu).trans hw.2⟩

/-- Once `cancel_requested` is set, `start_request` does not read it as unset. -/
theorem Settled.step (h : step cfg s t ch = some (s', ts)) (hs : Settled s) : Settled s' := by
  have hframe := step_frame h
  have hprogress := step_progress h
  refine ⟨⟨hprogress.closing hs.1.1, hprogress.cancelRequested hs.1.2⟩, ?_⟩
  intro hread
  refine Answered.mono hframe.done hframe.trace (hs.2 ?_)
  rcases step_event h with heq | ⟨e, heq, hcause⟩
  · rw [← heq]
    exact hread
  · rw [heq, List.mem_append, List.mem_singleton] at hread
    rcases hread with hread | rfl
    · exact hread
    · have hset := hcause.2
      rw [hs.1.2] at hset
      contradiction

theorem stands_other (h : step cfg s t ch = some (s', ts)) (hu : Stands s u)
    (hstarter : t.starter + u.starter ≤ 1) (howner : t.owner + u.owner ≤ 1) : Stands s' u := by
  have hframe := step_frame h
  have hprogress := step_progress h
  have hcancel : s.engine.closing = true ∧ s.control.cancelRequested = true →
      s'.engine.closing = true ∧ s'.control.cancelRequested = true :=
    fun hc => ⟨hprogress.closing hc.1, hprogress.cancelRequested hc.2⟩
  have hundisturbed : u.starter = 1 → Undisturbed s u s' := by
    intro hone
    refine ⟨?_, ?_, hprogress.registered, Answered.mono hframe.done hframe.trace⟩
    · intro e he
      exact ⟨not_starts_of_step h (alone hstarter hone) he, fun hmem => hframe.trace.subset hmem⟩
    · intro ho
      have hzero := alone howner ho
      rcases hprogress.raw with heq | ⟨rfl, -⟩ | ⟨why, rfl⟩
      · exact heq
      · contradiction
      · contradiction
  cases u with
  | start p => exact (hundisturbed rfl).start hu
  | shutdown p => cases p <;> first | trivial | exact hprogress.closing hu
  | control p =>
    cases p with
    | statusLoad => trivial
    | store who =>
      cases who with
      | registering => exact (hundisturbed rfl).registering rfl hu
      | started => exact (hundisturbed rfl).started rfl hu
      | shutdown => exact hprogress.closing hu
      | _ => trivial
    | lock op | raw op | done op | call op =>
      cases op with
      | cancel who =>
        cases who with
        | registering => exact (hundisturbed rfl).registering rfl hu
        | started => exact (hundisturbed rfl).started rfl hu
        | shutdown => exact hcancel hu
        | _ => trivial
      | _ => trivial
    | unlock op e =>
      cases op with
      | cancel who =>
        cases who with
        | registering => exact (hundisturbed rfl).registering rfl hu
        | started => exact (hundisturbed rfl).begun hu
        | shutdown => exact Settled.step h hu
        | _ => trivial
      | _ => trivial
  | cleanup p =>
    cases p with
    | terminal | finished | count | arm | recheck | park => trivial
    | drop why | gate why | raw why | destroy why | unlock why | buffer why | context why =>
      cases why with
      | cleanup => trivial
      | failed e => exact (hundisturbed rfl).failed hu
  | _ => trivial

variable {allowed : Policy Shared Thread Choice} {c c' : Config Shared Thread}

/-- What holds of a start against any number of shutdowns. -/
structure StartupInv (c : Config Shared Thread) : Prop where
  /-- There is one call of `start_request`. -/
  starter : total Thread.starter c.threads ≤ 1
  /-- The threads stand where they can. -/
  stands : ∀ t ∈ c.threads, Stands c.shared t
  /-- The trace says what the fields do. -/
  readings : Readings c.shared
  /-- A shutdown that is done with its cancellation has cancelled this request, or
  came before it was registered. -/
  late : .shutdown .done ∈ c.threads → Settled c.shared ∨
    c.shared.engine.closing = true ∧ total Thread.ready c.threads = 0 ∧
      .start ∉ c.shared.trace

theorem startupInv_init : StartupInv start.config where
  starter := by simp [start, Listed.config]
  stands := by simp [start, Listed.config, Stands, Start.Stands, Unstarted, Unread]
  readings := by simp [start, Listed.config, readings_iff, Unread]
  late := by simp [start, Listed.config]

theorem startupInv_step (hl : LifetimeInv c) (hi : StartupInv c)
    (hs : Step (step cfg) allowed c c') : StartupInv c' := by
  obtain ⟨_, hn⟩ := hs
  rename_i s s' t ts rest ch _
  have hmem : t ∈ t ::ₘ rest := Multiset.mem_cons_self t rest
  have hprogress := step_progress hn
  have hframe := step_frame hn
  have hstarter : total Thread.starter (t ::ₘ rest) ≤ 1 := hi.starter
  have howner : total Thread.owner (t ::ₘ rest) ≤ 1 := by
    have hone : s.trace.count .destroy + total Thread.owner (t ::ₘ rest) ≤ 1 := hl.owner
    omega
  have hstands := hi.stands t hmem
  refine ⟨?_, ?_, step_readings hn hstands (hl.sound t hmem) hi.readings, ?_⟩
  · have hle := hprogress.starter
    rw [total_cons] at hstarter
    rw [total_add, total_coe]
    omega
  · refine forall_step hi.stands (fun _ => step_stands hn hstands hi.readings) ?_
    intro u hu hsu
    exact stands_other hn hsu ((add_le_total hu).trans hstarter) ((add_le_total hu).trans howner)
  · intro hdone
    rcases Multiset.mem_add.mp hdone with hdone | hdone
    · -- this step ends the cancellation of a shutdown
      rcases hprogress.finishes (Multiset.mem_coe.mp hdone) with ⟨rfl, hreg, heq⟩ | ⟨e, rfl⟩
      · have hnot : ∀ u ∈ Thread.shutdown .snapshot ::ₘ rest, u.ready = 0 := by
          intro u hu
          have hsu := hi.stands u hu
          cases u with
          | start p =>
            cases p with
            | configure | init | start =>
              have hset : s.engine.registered = true := hsu.2
              rw [hreg] at hset
              contradiction
            | _ => rfl
          | _ => rfl
        have hzero := total_eq_zero.mpr hnot
        have hle := hprogress.ready hstands
        refine .inr ⟨hprogress.closing hstands, ?_, ?_⟩
        · rw [total_cons] at hzero
          rw [total_add, total_coe]
          omega
        · rw [heq]
          intro hstart
          have hset := hi.readings.start hstart
          simp only at hset
          rw [hreg] at hset
          contradiction
      · exact .inl (Settled.step hn hstands)
    · rcases hi.late (Multiset.mem_cons_of_mem hdone) with hsettled | ⟨hclosing, hzero, hnot⟩
      · exact .inl (Settled.step hn hsettled)
      · have hle := hprogress.ready hclosing
        refine .inr ⟨hprogress.closing hclosing, ?_, ?_⟩
        · rw [total_cons] at hzero
          rw [total_add, total_coe]
          omega
        · intro hstart
          rcases step_event hn with heq | ⟨e, heq, hcause⟩
          · rw [heq] at hstart
            exact hnot hstart
          · rw [heq, List.mem_append, List.mem_singleton] at hstart
            rcases hstart with hstart | rfl
            · exact hnot hstart
            · have hready := total_eq_zero.mp hzero t hmem
              cases hcause
              contradiction

theorem startupInv_reachable (h : Reachable (step cfg) allowed start.config c) :
    StartupInv c := by
  induction h with
  | refl => exact startupInv_init
  | tail hr hs ih => exact startupInv_step (lifetimeInv_reachable hr) ih hs

/-- **A shutdown's cancellation is never lost.** When `start_request` has returned and
a shutdown is done with its cancellations, the request was refused with
`EngineShutdown` and never started, or its native start returned and it is done or
was cancelled after that, or `start_request` reported another failure and the native
start did not succeed. -/
theorem shutdown_cancels_request (h : Reachable (step cfg) allowed start.config c)
    {r : Result Unit} (hr : .start (.returned r) ∈ c.threads)
    (hdone : .shutdown .done ∈ c.threads) :
    r = .error .engineShutdown ∧ .start ∉ c.shared.trace ∨
    r = .ok () ∧ .started ∈ c.shared.trace ∧
      Answered c.shared.control.done c.shared.trace ∨
    ∃ e, r = .error e ∧ e ≠ .engineShutdown ∧ .started ∉ c.shared.trace := by
  have hi := startupInv_reachable h
  have hstands := hi.stands _ hr
  cases r with
  | error e =>
    by_cases he : e = .engineShutdown
    · exact .inl ⟨by rw [he], hstands.2 he⟩
    · exact .inr (.inr ⟨e, rfl, he, hstands.1.1⟩)
  | ok _ =>
    refine .inr (.inl ⟨rfl, hstands.1, ?_⟩)
    rcases hi.late hdone with hsettled | ⟨-, -, hnot⟩
    · rcases hstands.2 with hread | hanswered
      · exact hsettled.2 hread
      · exact hanswered
    · exact absurd (hi.readings.started hstands.1) hnot

end TokioCronet.Request
