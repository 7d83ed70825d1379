import TokioCronet.Request.Lifetime

/-!
# Handing the read buffer on

Who holds a native buffer, and what one step does with it. `Read` gives a buffer to
Cronet, a completion brings it back, and three more steps of the program change
only the application's record of it.
-/

namespace TokioCronet.Request

open Pool

variable {cfg : Settings} {s s' : Shared} {t u : Thread} {ch : Choice} {ts : List Thread}

/-! ## Who holds a buffer -/

/-- How a thread refers to a buffer. -/
inductive Hold where
  /-- The application's, and about to be recorded. -/
  | fresh
  /-- The application's, and recorded. -/
  | held
  /-- Cronet's since `Read` has returned, and about to be struck off the record. -/
  | clearing
  deriving DecidableEq

/-- The buffer that a gated operation has. -/
def GatedOp.holding : GatedOp → Option (Hold × BufferId)
  | .resumeRead b => some (.held, b)
  | _ => none

/-- The buffer that a runnable brings. -/
def Runnable.holding : Runnable → Option (Hold × BufferId)
  | .readCompleted b _ _ => some (.fresh, b)
  | _ => none

/-- The buffer that a thread has, and what it may do with it. -/
def Thread.holding : Thread → Option (Hold × BufferId)
  | .runnable .entered r => r.holding
  | .callback (.ownCreated b) | .callback (.own b _ _) => some (.fresh, b)
  | .callback (.account b _ _) | .callback (.copy b _ _) | .read (.call _ b)
  | .task (.send b _) => some (.held, b)
  | .control (.lock op) | .control (.raw op) | .control (.done op) | .control (.call op) =>
    op.holding
  | .read (.returned _ b code) =>
    if code = some .unexpectedRead then none else some (.clearing, b)
  | _ => none

/-- Threads that come to the next `Read`, or to the first. -/
def Runnable.token : Runnable → Nat
  | .responseStarted _ | .readCompleted _ _ _ => 1
  | _ => 0

/-- Whether the operation has the right to read. -/
def GatedOp.token : GatedOp → Nat
  | .resumeRead _ => 1
  | _ => 0

/-- Whether the thread has the right to read. -/
def Thread.token : Thread → Nat
  | .runnable _ r => r.token
  | .callback (.headers _) | .callback .allocate | .callback (.ownCreated _)
  | .callback (.own _ _ _) | .callback (.account _ _ _) | .callback (.copy _ _ _)
  | .read (.call _ _) | .task (.send _ _) => 1
  | .control (.lock op) | .control (.raw op) | .control (.done op) | .control (.call op) =>
    op.token
  | _ => 0

/-- Threads that come to the creation of the buffer. -/
def Runnable.birth : Runnable → Nat
  | .responseStarted _ => 1
  | _ => 0

/-- Whether the thread is on its way to create the buffer. -/
def Thread.birth : Thread → Nat
  | .runnable _ r => r.birth
  | .callback (.headers _) | .callback .allocate => 1
  | _ => 0

/-- Threads that come to the drop of `NativeRequest`, up to that of its buffer. -/
def Thread.dropping : Thread → Nat
  | .cleanup (.unlock _) | .cleanup (.buffer _) => 1
  | t => t.owner

/-- The thread destroys the buffer. -/
def Thread.dropsBuffer : Thread → Bool
  | .cleanup (.buffer _) => true
  | _ => false

section Helpers

variable (op : GatedOp) (site : Site) (r : Runnable) (e : Option Error)

@[simp] theorem after_token : ((op.after e).map Thread.token).sum = 0 := by
  fun_cases GatedOp.after op e <;> rfl

@[simp] theorem after_birth : ((op.after e).map Thread.birth).sum = 0 := by
  fun_cases GatedOp.after op e <;> rfl

@[simp] theorem after_dropping : ((op.after e).map Thread.dropping).sum = op.owner := by
  fun_cases GatedOp.after op e <;> rfl

@[simp] theorem leave_token : (site.leave.map Thread.token).sum = 0 := by
  cases site <;> rfl

@[simp] theorem leave_birth : (site.leave.map Thread.birth).sum = 0 := by
  cases site <;> rfl

@[simp] theorem leave_dropping : (site.leave.map Thread.dropping).sum = 0 := by
  cases site <;> rfl

@[simp] theorem callback_token : r.callback.token = r.token := by
  cases r <;> rfl

@[simp] theorem callback_birth : r.callback.birth = r.birth := by
  cases r <;> rfl

@[simp] theorem callback_dropping : r.callback.dropping = 0 := by
  cases r <;> rfl

theorem holding_none (h : (ts.all fun u => u.holding.isNone) = true) :
    ∀ u ∈ ts, u.holding = none := by
  intro u hu
  rw [List.all_eq_true] at h
  exact Option.isNone_iff_eq_none.mp (h u hu)

theorem after_holding : ∀ u ∈ op.after e, u.holding = none := by
  fun_cases GatedOp.after op e <;> exact holding_none rfl

theorem leave_holding : ∀ u ∈ site.leave, u.holding = none := by
  cases site <;> exact holding_none rfl

theorem callback_holding : r.callback.holding = r.holding := by
  cases r <;> rfl

end Helpers

/-! ## One step -/

/-- What a step does with the buffers. -/
inductive Transfer (s : Shared) (t : Thread) (ch : Choice) (s' : Shared) (ts : List Thread) :
    Prop where
  | kept (buffers : s'.native.buffers = s.native.buffers)
      (record : s'.context.state.buffer = s.context.state.buffer)
      (destroyed : ∀ b, s'.trace.count (.bufferDestroyed b) = s.trace.count (.bufferDestroyed b))
      (holding : ∀ u ∈ ts, u.holding = none ∨ u.holding = t.holding)
      (fresh : ∀ b, t.holding = some (.fresh, b) → ∃ u ∈ ts, u.holding = some (.fresh, b))
      (clearing : ∀ b, t.holding ≠ some (.clearing, b))
      (dropped : t.dropsBuffer = true → s.context.state.buffer = none)
  | created (thread : t = .callback .allocate)
      (buffers : s'.native.buffers = s.native.buffers ++ [.app])
      (record : s'.context.state.buffer = s.context.state.buffer)
      (destroyed : ∀ b, s'.trace.count (.bufferDestroyed b) = s.trace.count (.bufferDestroyed b))
      (next : ts = [.callback (.ownCreated s.native.buffers.length)])
  | begun (b : BufferId) (n : Nat) (content : Option Bytes)
      (thread : t = .runnable .running (.readCompleted b n content)) (choice : ch = .go)
      (buffers : s'.native.buffers = s.native.buffers.set b .app)
      (record : s'.context.state.buffer = s.context.state.buffer)
      (destroyed : ∀ b, s'.trace.count (.bufferDestroyed b) = s.trace.count (.bufferDestroyed b))
      (next : ts = [.runnable .entered (.readCompleted b n content)])
  | recorded (b : BufferId) (thread : t.holding = some (.fresh, b)) (token : t.token = 1)
      (buffers : s'.native.buffers = s.native.buffers)
      (record : s'.context.state.buffer = some b)
      (destroyed : ∀ b, s'.trace.count (.bufferDestroyed b) = s.trace.count (.bufferDestroyed b))
      (next : ∃ u, ts = [u] ∧ u.holding = some (.held, b))
  | read (site : Site) (b : BufferId) (thread : t = .read (.call site b))
      (buffers : s'.native.buffers = s.native.buffers.set b .cronet)
      (record : s'.context.state.buffer = s.context.state.buffer)
      (destroyed : ∀ b, s'.trace.count (.bufferDestroyed b) = s.trace.count (.bufferDestroyed b))
      (next : ∃ u, ts = [u] ∧ u.holding = some (.clearing, b))
  | cleared (b : BufferId) (thread : t.holding = some (.clearing, b))
      (buffers : s'.native.buffers = s.native.buffers)
      (record : s'.context.state = s.context.state.forget b)
      (destroyed : ∀ b, s'.trace.count (.bufferDestroyed b) = s.trace.count (.bufferDestroyed b))
      (next : ∀ u ∈ ts, u.holding = none)
  | freed (b : BufferId) (thread : t = .outside .cronet)
      (owned : s.native.buffers[b]? = some .cronet)
      (buffers : s'.native.buffers = s.native.buffers.set b .freed)
      (record : s'.context.state.buffer = s.context.state.buffer)
      (destroyed : s'.trace = s.trace ++ [.bufferDestroyed b])
      (next : ts = [.outside .cronet])
  | dropped (why : Dropper) (b : BufferId) (thread : t = .cleanup (.buffer why))
      (recorded : s.context.state.buffer = some b)
      (buffers : s'.native.buffers = s.native.buffers.set b .freed)
      (record : s'.context.state.buffer = s.context.state.buffer)
      (destroyed : s'.trace = s.trace ++ [.bufferDestroyed b])
      (next : ts = [.cleanup (.context why)])

@[simp] theorem submit_buffers (n : Native) (r : Runnable) : (n.submit r).buffers = n.buffers := by
  cases r <;> rfl

theorem count_keep {tr : List Event} {e : Event} {b : BufferId} (h : .bufferDestroyed b ≠ e) :
    (tr ++ [e]).count (.bufferDestroyed b) = tr.count (.bufferDestroyed b) := by
  rw [List.count_append, List.count_singleton, if_neg (by simpa using h.symm), Nat.add_zero]

/-- A thread that hands no buffer on. -/
theorem Transfer.idle (buffers : s'.native.buffers = s.native.buffers)
    (record : s'.context.state.buffer = s.context.state.buffer)
    (destroyed : ∀ b, s'.trace.count (.bufferDestroyed b) = s.trace.count (.bufferDestroyed b))
    (holding : ∀ u ∈ ts, u.holding = none) (thread : t.holding = none)
    (dropped : t.dropsBuffer = false) : Transfer s t ch s' ts := by
  refine .kept buffers record destroyed (fun u hu => .inl (holding u hu)) ?_ ?_ ?_
  · intro b hb
    rw [thread] at hb
    contradiction
  · intro b hb
    rw [thread] at hb
    contradiction
  · intro hd
    rw [dropped] at hd
    contradiction

/-- A thread that holds a recorded buffer, and may hand it on. -/
theorem Transfer.pass {b : BufferId} (buffers : s'.native.buffers = s.native.buffers)
    (record : s'.context.state.buffer = s.context.state.buffer)
    (destroyed : ∀ b, s'.trace.count (.bufferDestroyed b) = s.trace.count (.bufferDestroyed b))
    (holding : ∀ u ∈ ts, u.holding = none ∨ u.holding = t.holding)
    (thread : t.holding = some (.held, b)) (dropped : t.dropsBuffer = false) :
    Transfer s t ch s' ts := by
  refine .kept buffers record destroyed holding ?_ ?_ ?_
  · intro b' hb
    rw [thread] at hb
    cases hb
  · intro b' hb
    rw [thread] at hb
    cases hb
  · intro hd
    rw [dropped] at hd
    contradiction

theorem outsideStep_transfer {who : Outside} (h : outsideStep s who ch = some (s', ts)) :
    Transfer s (.outside who) ch s' ts := by
  revert h
  fun_cases outsideStep s who ch <;> first | exact of_none | apply of_some
  all_goals first
    | exact .freed _ rfl ‹_› rfl rfl rfl rfl
    | exact .idle (by simp) rfl (by simp) (holding_none rfl) rfl rfl

theorem startStep_transfer {p : Start} (h : startStep s p ch = some (s', ts)) :
    Transfer s (.start p) ch s' ts := by
  revert h
  fun_cases startStep s p ch <;> first | exact of_none | apply of_some
  all_goals
    exact .idle rfl rfl (by simp) (holding_none rfl) rfl rfl

theorem shutdownStep_transfer {p : Shutdown} (h : shutdownStep s p ch = some (s', ts)) :
    Transfer s (.shutdown p) ch s' ts := by
  revert h
  fun_cases shutdownStep s p ch <;> first | exact of_none | apply of_some
  all_goals
    exact .idle rfl rfl (by simp) (holding_none rfl) rfl rfl

theorem controlStep_transfer {p : Control} (h : controlStep s p ch = some (s', ts)) :
    Transfer s (.control p) ch s' ts := by
  have hholding : (Thread.control p).holding = none ∨
      ∃ b, (Thread.control p).holding = some (.held, b) := by
    cases p with
    | lock op | raw op | done op | call op =>
      cases op with
      | resumeRead b => exact .inr ⟨b, rfl⟩
      | _ => exact .inl rfl
    | _ => exact .inl rfl
  have hpass : ∀ u ∈ ts, u.holding = none ∨ u.holding = (Thread.control p).holding := by
    revert h
    fun_cases controlStep s p ch <;> first | exact of_none | apply of_some
    all_goals
      intro u hu
      first
        | exact .inl (after_holding _ _ u hu)
        | exact .inl (holding_none rfl u hu)
        | exact .inr ((congrArg Thread.holding (List.mem_singleton.mp hu)).trans rfl)
  have hkept : s'.native.buffers = s.native.buffers ∧
      s'.context.state.buffer = s.context.state.buffer ∧
      ∀ b, s'.trace.count (.bufferDestroyed b) = s.trace.count (.bufferDestroyed b) := by
    revert h
    fun_cases controlStep s p ch <;> first | exact of_none | apply of_some
    all_goals exact ⟨rfl, rfl, by simp⟩
  rcases hholding with hnone | ⟨b, hb⟩
  · refine .idle hkept.1 hkept.2.1 hkept.2.2 ?_ hnone rfl
    intro u hu
    rcases hpass u hu with hu | hu
    · exact hu
    · rw [hu, hnone]
  · exact .pass hkept.1 hkept.2.1 hkept.2.2 hpass hb rfl

theorem runnableStep_transfer {stage : Stage} {r : Runnable}
    (h : runnableStep s stage r ch = some (s', ts)) : Transfer s (.runnable stage r) ch s' ts := by
  revert h
  fun_cases runnableStep s stage r ch <;> first | exact of_none | apply of_some
  case case1 => exact .idle rfl rfl (by simp) (holding_none rfl) rfl rfl
  case case2 =>
    cases r with
    | readCompleted b n content => exact .begun b n content rfl rfl rfl rfl (by simp) rfl
    | _ => exact .idle rfl rfl (by simp) (holding_none rfl) rfl rfl
  case case3 => exact .idle rfl rfl (by simp) (holding_none rfl) rfl rfl
  all_goals
    refine .kept rfl rfl (fun _ => rfl) ?_ ?_ ?_ ?_
    · exact List.forall_mem_singleton.mpr (.inr (callback_holding r))
    · intro b hb
      exact ⟨_, List.mem_singleton_self _, (callback_holding r).trans hb⟩
    · intro b hb
      cases r <;> cases hb
    · intro hd
      cases hd

theorem callbackStep_transfer {p : Callback} (h : callbackStep cfg s p ch = some (s', ts)) :
    Transfer s (.callback p) ch s' ts := by
  revert h
  fun_cases callbackStep cfg s p ch <;> first | exact of_none | apply of_some
  all_goals first
    | exact .idle rfl rfl (by simp) (holding_none rfl) rfl rfl
    | exact .pass rfl rfl (fun _ => rfl) (fun u hu => .inl (holding_none rfl u hu)) rfl rfl
    | exact .pass rfl rfl (fun _ => rfl) (List.forall_mem_singleton.mpr (.inr rfl)) rfl rfl
    | exact .pass rfl rfl (fun _ => rfl)
        (List.forall_mem_cons.mpr ⟨.inr rfl, List.forall_mem_singleton.mpr (.inl rfl)⟩) rfl rfl
    | exact .created rfl rfl rfl (by simp) rfl
    | exact .recorded _ rfl rfl rfl rfl (by simp) ⟨_, rfl, rfl⟩

theorem readStep_transfer {p : Read} (h : readStep s p ch = some (s', ts)) :
    Transfer s (.read p) ch s' ts := by
  revert h
  fun_cases readStep s p ch <;> first | exact of_none | apply of_some
  case case1 site b code =>
    by_cases hcode : code = some .unexpectedRead
    · subst hcode
      exact .pass rfl rfl (by simp) (List.forall_mem_singleton.mpr (.inl rfl)) rfl rfl
    · refine .read site b rfl ?_ rfl (by simp) ⟨_, rfl, if_neg hcode⟩
      cases code with
      | none => rfl
      | some code => cases code <;> first | rfl | contradiction
  case case2 => exact .cleared _ rfl rfl rfl (fun _ => rfl) (leave_holding _)
  case case3 => exact .idle rfl rfl (fun _ => rfl) (holding_none rfl) rfl rfl
  case case4 hcode =>
    exact .cleared _ (if_neg (by simpa using hcode)) rfl rfl (fun _ => rfl) (holding_none rfl)
  case case5 => exact .idle rfl rfl (by simp) (holding_none rfl) rfl rfl
  case case6 => exact .idle rfl rfl (by simp) (leave_holding _) rfl rfl
  case case7 => exact .idle rfl rfl (fun _ => rfl) (holding_none rfl) rfl rfl

theorem terminalStep_transfer {p : Terminal} (h : terminalStep s p ch = some (s', ts)) :
    Transfer s (.terminal p) ch s' ts := by
  revert h
  fun_cases terminalStep s p ch <;> first | exact of_none | apply of_some
  all_goals
    exact .idle rfl rfl (by simp) (holding_none rfl) rfl rfl

theorem taskStep_transfer {p : Task} (h : taskStep cfg s p ch = some (s', ts)) :
    Transfer s (.task p) ch s' ts := by
  revert h
  fun_cases taskStep cfg s p ch <;> first | exact of_none | apply of_some
  all_goals first
    | exact .idle (by simp) (by simp) (by simp) (holding_none rfl) rfl rfl
    | exact .pass rfl rfl (by simp) (fun u hu => .inl (holding_none rfl u hu)) rfl rfl
    | exact .pass rfl rfl (by simp) (List.forall_mem_singleton.mpr (.inr rfl)) rfl rfl

theorem uploadStep_transfer {p : Upload} (h : uploadStep cfg s p ch = some (s', ts)) :
    Transfer s (.upload p) ch s' ts := by
  revert h
  fun_cases uploadStep cfg s p ch <;> first | exact of_none | apply of_some
  all_goals
    exact .idle rfl rfl (by simp) (holding_none rfl) rfl rfl

theorem cleanupStep_transfer {p : Cleanup} (h : cleanupStep s p ch = some (s', ts)) :
    Transfer s (.cleanup p) ch s' ts := by
  revert h
  fun_cases cleanupStep s p ch <;> first | exact of_none | apply of_some
  all_goals first
    | exact .dropped _ _ rfl ‹_› rfl rfl rfl rfl
    | exact .idle (by simp) (by simp) (by simp) (holding_none rfl) rfl rfl
    -- there is no buffer to destroy
    | (refine .kept rfl rfl (fun _ => rfl) (fun u hu => .inl (holding_none rfl u hu)) ?_ ?_
         (fun _ => ‹_›)
       · intro b hb
         cases hb
       · intro b hb
         cases hb)

theorem executeStep_transfer {p : Execute} (h : executeStep s p ch = some (s', ts)) :
    Transfer s (.execute p) ch s' ts := by
  revert h
  fun_cases executeStep s p ch <;> first | exact of_none | apply of_some
  all_goals
    exact .idle rfl rfl (by simp) (holding_none rfl) rfl rfl

/-- **A step does one thing with the buffers.** -/
theorem step_transfer (h : step cfg s t ch = some (s', ts)) : Transfer s t ch s' ts := by
  cases t with
  | outside who => exact outsideStep_transfer h
  | start p => exact startStep_transfer h
  | shutdown p => exact shutdownStep_transfer h
  | control p => exact controlStep_transfer h
  | runnable stage r => exact runnableStep_transfer h
  | callback p => exact callbackStep_transfer h
  | read p => exact readStep_transfer h
  | terminal p => exact terminalStep_transfer h
  | task p => exact taskStep_transfer h
  | upload p => exact uploadStep_transfer h
  | cleanup p => exact cleanupStep_transfer h
  | execute p => exact executeStep_transfer h

/-! ## Budgets -/

/-- Cronet reports the response once, and completes the read it was asked for. -/
def AnswersReads : Policy Shared Thread Choice := fun c _ ch =>
  (∀ info, ch = .submit (.responseStarted info) → c.shared.native.responded = false) ∧
  ∀ b n content, ch = .submit (.readCompleted b n content) → c.shared.native.reading = some b

/-- What one step does to the budgets. -/
structure Budget (s : Shared) (t : Thread) (s' : Shared) (ts : List Thread) : Prop where
  /-- The right to read is handed on. -/
  token : (!s'.native.responded).toNat + s'.native.reading.isSome.toNat +
      (ts.map Thread.token).sum ≤
    (!s.native.responded).toNat + s.native.reading.isSome.toNat + t.token
  /-- The buffer is created once. -/
  birth : s'.native.buffers.length + (!s'.native.responded).toNat + (ts.map Thread.birth).sum ≤
    s.native.buffers.length + (!s.native.responded).toNat + t.birth

@[simp] theorem begin_responded (n : Native) (r : Runnable) :
    (n.begin r).responded = n.responded := by
  cases r <;> rfl

@[simp] theorem begin_reading (n : Native) (r : Runnable) : (n.begin r).reading = n.reading := by
  cases r <;> rfl

@[simp] theorem begin_buffers_length (n : Native) (r : Runnable) :
    (n.begin r).buffers.length = n.buffers.length := by
  cases r <;> simp [Native.begin]

@[simp] theorem read_responded (n : Native) (b : BufferId) (code : Option ResultCode) :
    (n.read b code).responded = n.responded := by
  fun_cases Native.read n b code <;> rfl

@[simp] theorem read_buffers_length (n : Native) (b : BufferId) (code : Option ResultCode) :
    (n.read b code).buffers.length = n.buffers.length := by
  fun_cases Native.read n b code <;> simp

theorem read_reading (n : Native) (b : BufferId) (code : Option ResultCode) :
    (n.read b code).reading.isSome.toNat ≤ n.reading.isSome.toNat + 1 := by
  fun_cases Native.read n b code <;> simp

theorem Budget.still (hnative : s'.native = s.native)
    (htoken : (ts.map Thread.token).sum = t.token) (hbirth : (ts.map Thread.birth).sum = t.birth) :
    Budget s t s' ts where
  token := by rw [hnative, htoken]
  birth := by rw [hnative, hbirth]

attribute [local simp] Thread.token Thread.birth Runnable.token Runnable.birth GatedOp.token refuse

theorem step_budget (h : step cfg s t ch = some (s', ts))
    (hresponse : ∀ info, ch = .submit (.responseStarted info) → s.native.responded = false)
    (hread : ∀ b n content, ch = .submit (.readCompleted b n content) →
      s.native.reading = some b) :
    Budget s t s' ts := by
  revert h
  cases t <;> simp only [step]
  case outside who =>
    fun_cases outsideStep s who ch <;> first | exact of_none | apply of_some
    case case1 r _ =>
      cases r with
      | responseStarted info =>
        have hnew := hresponse info rfl
        constructor <;> simp [Native.submit, hnew, Nat.add_comm]
      | readCompleted b n content =>
        have hanswer := hread b n content rfl
        constructor <;> simp [Native.submit, hanswer]
      | _ => constructor <;> simp [Native.submit]
    all_goals first
      | exact .still rfl rfl rfl
      | (constructor <;> simp)
  case start p =>
    fun_cases startStep s p ch <;> first | exact of_none | apply of_some
    all_goals first
      | exact .still rfl rfl rfl
      | (constructor <;> simp)
  case shutdown p =>
    fun_cases shutdownStep s p ch <;> first | exact of_none | apply of_some
    all_goals exact .still rfl rfl rfl
  case control p =>
    fun_cases controlStep s p ch <;> first | exact of_none | apply of_some
    all_goals first
      | exact .still rfl rfl rfl
      | (constructor <;> simp)
  case runnable stage r =>
    fun_cases runnableStep s stage r ch <;> first | exact of_none | apply of_some
    all_goals first
      | exact .still rfl rfl rfl
      | (constructor <;> cases r <;> simp [Runnable.callback])
  case callback p =>
    fun_cases callbackStep cfg s p ch <;> first | exact of_none | apply of_some
    all_goals first
      | exact .still rfl rfl rfl
      | (constructor <;> simp)
    omega
  case read p =>
    fun_cases readStep s p ch <;> first | exact of_none | apply of_some
    all_goals first
      | exact .still rfl rfl rfl
      | (constructor <;> simp)
    case case1 b code =>
      have hle := read_reading s.native b code
      omega
  case terminal p =>
    fun_cases terminalStep s p ch <;> first | exact of_none | apply of_some
    all_goals exact .still rfl rfl rfl
  case task p =>
    fun_cases taskStep cfg s p ch <;> first | exact of_none | apply of_some
    all_goals first
      | exact .still rfl rfl rfl
      | (constructor <;> simp)
  case upload p =>
    fun_cases uploadStep cfg s p ch <;> first | exact of_none | apply of_some
    all_goals exact .still rfl rfl rfl
  case cleanup p =>
    fun_cases cleanupStep s p ch <;> first | exact of_none | apply of_some
    all_goals first
      | exact .still rfl rfl rfl
      | (constructor <;> simp)
  case execute p =>
    fun_cases executeStep s p ch <;> first | exact of_none | apply of_some
    all_goals exact .still rfl rfl rfl

/-- Where a thread stands that will drop nothing after this step. -/
inductive Gone (s : Shared) : Thread → Prop where
  | start (p : Start) (silent : p.Sound s.native → s.native.Silent) : Gone s (.start p)
  | buffer (why : Dropper) : Gone s (.cleanup (.buffer why))
  | leak (done : s.control.done = false) : Gone s (.cleanup (.drop .cleanup))

theorem step_dropping (h : step cfg s t ch = some (s', ts)) :
    (ts.map Thread.dropping).sum = t.dropping ∨
    (ts.map Thread.dropping).sum = 0 ∧ Gone s t ∧ s'.native.accepting = s.native.accepting ∧
      s'.native.submitted = s.native.submitted := by
  revert h
  cases t <;> simp only [step]
  case outside who =>
    fun_cases outsideStep s who ch <;> first | exact of_none | (apply of_some; exact .inl rfl)
  case start p =>
    fun_cases startStep s p ch <;> first | exact of_none | apply of_some
    all_goals first
      | exact .inl rfl
      | exact .inr ⟨rfl, .start _ id, rfl, rfl⟩
  case shutdown p =>
    fun_cases shutdownStep s p ch <;> first | exact of_none | (apply of_some; exact .inl rfl)
  case control p =>
    fun_cases controlStep s p ch <;> first | exact of_none | apply of_some
    all_goals first
      | exact .inl rfl
      | exact .inl (after_dropping _ _)
  case runnable stage r =>
    fun_cases runnableStep s stage r ch <;> first | exact of_none | apply of_some
    all_goals first
      | exact .inl rfl
      | (cases r <;> exact .inl rfl)
  case callback p =>
    fun_cases callbackStep cfg s p ch <;> first | exact of_none | (apply of_some; exact .inl rfl)
  case read p =>
    fun_cases readStep s p ch <;> first | exact of_none | apply of_some
    all_goals first
      | exact .inl rfl
      | exact .inl (leave_dropping _)
  case terminal p =>
    fun_cases terminalStep s p ch <;> first | exact of_none | (apply of_some; exact .inl rfl)
  case task p =>
    fun_cases taskStep cfg s p ch <;> first | exact of_none | (apply of_some; exact .inl rfl)
  case upload p =>
    fun_cases uploadStep cfg s p ch <;> first | exact of_none | (apply of_some; exact .inl rfl)
  case cleanup p =>
    fun_cases cleanupStep s p ch <;> first | exact of_none | apply of_some
    all_goals first
      | exact .inl rfl
      | exact .inr ⟨rfl, .buffer _, rfl, rfl⟩
      | exact .inr ⟨rfl, .leak (by simp_all), rfl, rfl⟩
  case execute p =>
    fun_cases executeStep s p ch <;> first | exact of_none | (apply of_some; exact .inl rfl)

end TokioCronet.Request
