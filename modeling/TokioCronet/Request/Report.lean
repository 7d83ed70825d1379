import TokioCronet.Request.Transfer

/-!
# The report of a request

Five kinds of threads may record an error, and the first terminal callback tells the
header future and the body what became of the request. It does so in separately
locked steps, so each of them is counted: the header future is resolved once, `done`
is set once, `request_error` is consumed once, and at most one error is sent to the
body. What is told is the first error recorded before the consumption, or the error
of the callback itself.
-/

namespace TokioCronet.Request

open Pool

variable {cfg : Settings} {s s' : Shared} {t u : Thread} {ch : Choice} {ts : List Thread}

/-! ## What is counted -/

/-- `done` is set. -/
def Event.isDone : Event → Bool
  | .done => true
  | _ => false

/-- The error of the request is taken. -/
def Event.isConsumed : Event → Bool
  | .consumed _ _ => true
  | _ => false

/-- The sender of the header future is used up. -/
def Event.isHeaders : Event → Bool
  | .responseHeaders _ | .terminalHeaders _ => true
  | _ => false

/-- An error is put into the body. -/
def Event.isBodyError : Event → Bool
  | .bodyError _ => true
  | _ => false

/-- The terminal callback on its way to set `done`. -/
def Thread.toDone : Thread → Nat
  | .terminal (.done _) => 1
  | _ => 0

/-- The terminal callback on its way to consume `request_error`. -/
def Thread.toConsume : Thread → Nat
  | .terminal (.done _) | .terminal (.take _) => 1
  | _ => 0

/-- The terminal callback on its way to an error for the body, and the task that
sends it. -/
def Thread.toBodyError : Thread → Nat
  | .terminal (.done _) | .terminal (.take _) | .terminal (.headers _) | .terminal (.spawn _)
  | .task (.sendError _) => 1
  | _ => 0

/-- What one step does to the counts. -/
structure Tally (s : Shared) (t : Thread) (s' : Shared) (ts : List Thread) : Prop where
  /-- `done` is set once. -/
  done : (!s'.context.state.terminal).toNat + s'.trace.countP Event.isDone +
      (ts.map Thread.toDone).sum =
    (!s.context.state.terminal).toNat + s.trace.countP Event.isDone + t.toDone
  /-- The error is taken once at most. -/
  consumed : (!s'.context.state.terminal).toNat + s'.trace.countP Event.isConsumed +
      (ts.map Thread.toConsume).sum ≤
    (!s.context.state.terminal).toNat + s.trace.countP Event.isConsumed + t.toConsume
  /-- The body is told once at most. -/
  bodyError : (!s'.context.state.terminal).toNat + s'.trace.countP Event.isBodyError +
      (ts.map Thread.toBodyError).sum ≤
    (!s.context.state.terminal).toNat + s.trace.countP Event.isBodyError + t.toBodyError
  /-- The headers are sent once. -/
  headers : s'.context.headersSender.toNat + s'.trace.countP Event.isHeaders =
    s.context.headersSender.toNat + s.trace.countP Event.isHeaders

section Helpers

variable (op : GatedOp) (site : Site) (r : Runnable) (e : Option Error)

@[simp] theorem after_toDone : ((op.after e).map Thread.toDone).sum = 0 := by
  fun_cases GatedOp.after op e <;> rfl

@[simp] theorem after_toConsume : ((op.after e).map Thread.toConsume).sum = 0 := by
  fun_cases GatedOp.after op e <;> rfl

@[simp] theorem after_toBodyError : ((op.after e).map Thread.toBodyError).sum = 0 := by
  fun_cases GatedOp.after op e <;> rfl

@[simp] theorem leave_toDone : (site.leave.map Thread.toDone).sum = 0 := by
  cases site <;> rfl

@[simp] theorem leave_toConsume : (site.leave.map Thread.toConsume).sum = 0 := by
  cases site <;> rfl

@[simp] theorem leave_toBodyError : (site.leave.map Thread.toBodyError).sum = 0 := by
  cases site <;> rfl

@[simp] theorem forget_terminal (c : CallbackState) (b : BufferId) :
    (c.forget b).terminal = c.terminal := by
  unfold CallbackState.forget
  split <;> rfl

end Helpers

theorem Tally.still (hcontext : s'.context = s.context) (htrace : s'.trace = s.trace)
    (hdone : (ts.map Thread.toDone).sum = t.toDone)
    (hconsume : (ts.map Thread.toConsume).sum = t.toConsume)
    (hbody : (ts.map Thread.toBodyError).sum = t.toBodyError) : Tally s t s' ts where
  done := by rw [hcontext, htrace, hdone]
  consumed := by rw [hcontext, htrace, hconsume]
  bodyError := by rw [hcontext, htrace, hbody]
  headers := by rw [hcontext, htrace]

attribute [local simp] Thread.toDone Thread.toConsume Thread.toBodyError Event.isDone
  Event.isConsumed Event.isHeaders Event.isBodyError refuse

theorem step_tally (h : step cfg s t ch = some (s', ts)) : Tally s t s' ts := by
  revert h
  cases t <;> simp only [step]
  case outside who =>
    fun_cases outsideStep s who ch <;> first | exact of_none | apply of_some
    all_goals first
      | exact .still rfl rfl rfl rfl rfl
      | (constructor <;> simp)
  case start p =>
    fun_cases startStep s p ch <;> first | exact of_none | apply of_some
    all_goals first
      | exact .still rfl rfl rfl rfl rfl
      | (constructor <;> simp)
  case shutdown p =>
    fun_cases shutdownStep s p ch <;> first | exact of_none | apply of_some
    all_goals exact .still rfl rfl rfl rfl rfl
  case control p =>
    fun_cases controlStep s p ch <;> first | exact of_none | apply of_some
    all_goals first
      | exact .still rfl rfl rfl rfl rfl
      | (constructor <;> simp)
  case runnable stage r =>
    fun_cases runnableStep s stage r ch <;> first | exact of_none | apply of_some
    all_goals first
      | exact .still rfl rfl rfl rfl rfl
      | (constructor <;> cases r <;> simp [Runnable.callback])
  case callback p =>
    fun_cases callbackStep cfg s p ch <;> first | exact of_none | apply of_some
    all_goals first
      | exact .still rfl rfl rfl rfl rfl
      | (constructor <;> simp_all <;> omega)
  case read p =>
    fun_cases readStep s p ch <;> first | exact of_none | apply of_some
    all_goals first
      | exact .still rfl rfl rfl rfl rfl
      | (constructor <;> simp)
  case terminal p =>
    fun_cases terminalStep s p ch <;> first | exact of_none | apply of_some
    case case6 error _ _ =>
      cases error <;> constructor <;> simp_all [Terminal.report] <;> omega
    case case7 error _ _ =>
      cases error <;> constructor <;> simp_all [Terminal.report]
    all_goals first
      | exact .still rfl rfl rfl rfl rfl
      | (constructor <;> simp_all <;> omega)
  case task p =>
    fun_cases taskStep cfg s p ch <;> first | exact of_none | apply of_some
    all_goals first
      | exact .still rfl rfl rfl rfl rfl
      | (constructor <;> simp)
    omega
  case upload p =>
    fun_cases uploadStep cfg s p ch <;> first | exact of_none | apply of_some
    all_goals first
      | exact .still rfl rfl rfl rfl rfl
      | (constructor <;> simp)
  case cleanup p =>
    fun_cases cleanupStep s p ch <;> first | exact of_none | apply of_some
    all_goals first
      | exact .still rfl rfl rfl rfl rfl
      | (constructor <;> simp)
  case execute p =>
    fun_cases executeStep s p ch <;> first | exact of_none | apply of_some
    all_goals first
      | exact .still rfl rfl rfl rfl rfl
      | (constructor <;> simp)

/-! ## What is told -/

/-- Events that the error slot and the header future take part in. -/
def Event.tells : Event → Bool
  | .recorded _ | .consumed _ _ | .responseHeaders _ | .terminalHeaders _ => true
  | _ => false

/-- What a step does with `request_error` and with the header future. -/
inductive Telling (s : Shared) (t : Thread) (s' : Shared) : Prop where
  | quiet (event : s'.trace = s.trace ∨ ∃ e, s'.trace = s.trace ++ [e] ∧ e.tells = false)
      (requestError : s'.context.requestError = s.context.requestError)
      (headers : s'.context.headers = s.context.headers)
      (sender : s'.context.headersSender = s.context.headersSender)
      (receiver : s'.context.headersReceiver = true → s.context.headersReceiver = true)
  | recorded (e : Error) (event : s'.trace = s.trace ++ [.recorded e])
      (requestError : s'.context.requestError = s.context.requestError.or (some e))
      (headers : s'.context.headers = s.context.headers)
      (sender : s'.context.headersSender = s.context.headersSender)
      (receiver : s'.context.headersReceiver = s.context.headersReceiver)
  | consumed (fallback : Option Error) (thread : t = .terminal (.take fallback))
      (event : s'.trace =
        s.trace ++ [.consumed fallback (s.context.requestError.or fallback)])
      (headers : s'.context.headers = s.context.headers)
      (sender : s'.context.headersSender = s.context.headersSender)
      (receiver : s'.context.headersReceiver = s.context.headersReceiver)
  | response (info : ResponseInfo) (event : s'.trace = s.trace ++ [.responseHeaders info])
      (requestError : s'.context.requestError = s.context.requestError)
      (unsent : s.context.headersSender = true)
      (headers : s.context.headersReceiver = true ∧ s'.context.headers = some (.ok info) ∨
        s.context.headersReceiver = false ∧ s'.context.headers = s.context.headers)
      (sender : s'.context.headersSender = false)
      (receiver : s'.context.headersReceiver = s.context.headersReceiver)
  | terminal (error : Option Error) (thread : t = .terminal (.headers error))
      (event : s'.trace = s.trace ++ [.terminalHeaders (error.getD .callbackChannelClosed)])
      (requestError : s'.context.requestError = s.context.requestError)
      (unsent : s.context.headersSender = true)
      (headers : s.context.headersReceiver = true ∧
          s'.context.headers = some (.error (error.getD .callbackChannelClosed)) ∨
        s.context.headersReceiver = false ∧ s'.context.headers = s.context.headers)
      (sender : s'.context.headersSender = false)
      (receiver : s'.context.headersReceiver = s.context.headersReceiver)

theorem step_telling (h : step cfg s t ch = some (s', ts)) : Telling s t s' := by
  revert h
  cases t <;> simp only [step]
  case outside who =>
    fun_cases outsideStep s who ch <;> first | exact of_none | apply of_some
    all_goals first
      | exact .quiet (.inl rfl) rfl rfl rfl id
      | exact .quiet (.inr ⟨_, rfl, rfl⟩) rfl rfl rfl id
  case start p =>
    fun_cases startStep s p ch <;> first | exact of_none | apply of_some
    all_goals first
      | exact .quiet (.inl rfl) rfl rfl rfl id
      | exact .quiet (.inr ⟨_, rfl, rfl⟩) rfl rfl rfl id
  case shutdown p =>
    fun_cases shutdownStep s p ch <;> first | exact of_none | apply of_some
    all_goals
      exact .quiet (.inl rfl) rfl rfl rfl id
  case control p =>
    fun_cases controlStep s p ch <;> first | exact of_none | apply of_some
    all_goals first
      | exact .quiet (.inl rfl) rfl rfl rfl id
      | exact .quiet (.inr ⟨_, rfl, rfl⟩) rfl rfl rfl id
  case runnable stage r =>
    fun_cases runnableStep s stage r ch <;> first | exact of_none | apply of_some
    all_goals first
      | exact .quiet (.inl rfl) rfl rfl rfl id
      | exact .quiet (.inr ⟨_, rfl, rfl⟩) rfl rfl rfl id
  case callback p =>
    fun_cases callbackStep cfg s p ch <;> first | exact of_none | apply of_some
    all_goals first
      | exact .quiet (.inl rfl) rfl rfl rfl id
      | exact .quiet (.inr ⟨_, rfl, rfl⟩) rfl rfl rfl id
      | exact .response _ rfl rfl ‹_› (.inl ⟨‹_›, rfl⟩) rfl rfl
      | exact .response _ rfl rfl ‹_› (.inr ⟨Bool.eq_false_iff.mpr ‹_›, rfl⟩) rfl rfl
  case read p =>
    fun_cases readStep s p ch <;> first | exact of_none | apply of_some
    all_goals first
      | exact .quiet (.inl rfl) rfl rfl rfl id
      | exact .quiet (.inr ⟨_, rfl, rfl⟩) rfl rfl rfl id
      | exact .recorded _ rfl rfl rfl rfl rfl
  case terminal p =>
    fun_cases terminalStep s p ch <;> first | exact of_none | apply of_some
    all_goals first
      | exact .quiet (.inl rfl) rfl rfl rfl id
      | exact .quiet (.inr ⟨_, rfl, rfl⟩) rfl rfl rfl id
      | exact .consumed _ rfl rfl rfl rfl rfl
      | (refine .terminal _ rfl rfl rfl ‹_› ?_ rfl rfl
         by_cases hreceiver : s.context.headersReceiver = true
         · exact .inl ⟨hreceiver, if_pos hreceiver⟩
         · exact .inr ⟨by simpa using hreceiver, if_neg hreceiver⟩)
  case task p =>
    fun_cases taskStep cfg s p ch <;> first | exact of_none | apply of_some
    all_goals first
      | exact .quiet (.inl rfl) rfl rfl rfl id
      | exact .quiet (.inr ⟨_, rfl, rfl⟩) rfl rfl rfl id
      | exact .recorded _ rfl rfl rfl rfl rfl
      | exact .quiet (.inl (by simp)) (by simp) (by simp) (by simp) (by simp)
  case upload p =>
    fun_cases uploadStep cfg s p ch <;> first | exact of_none | apply of_some
    all_goals first
      | exact .quiet (.inl rfl) rfl rfl rfl id
      | exact .quiet (.inr ⟨_, rfl, rfl⟩) rfl rfl rfl id
      | exact .recorded _ rfl rfl rfl rfl rfl
  case cleanup p =>
    fun_cases cleanupStep s p ch <;> first | exact of_none | apply of_some
    all_goals first
      | exact .quiet (.inl rfl) rfl rfl rfl id
      | exact .quiet (.inr ⟨_, rfl, rfl⟩) rfl rfl rfl id
      | exact .quiet (.inl (by simp)) (by simp) (by simp) (by simp) (by simp)
  case execute p =>
    fun_cases executeStep s p ch <;> first | exact of_none | apply of_some
    all_goals first
      | exact .quiet (.inl rfl) rfl rfl rfl id
      | exact .quiet (.inl rfl) rfl rfl rfl (by simp)

/-- What `terminal` is called with, if a runnable calls it. -/
def Runnable.fallback : Runnable → Option (Option Error)
  | .succeeded => some none
  | .failed e => some (some (.network e))
  | .canceled => some (some .canceled)
  | _ => none

/-- The error a terminal callback brings with it. -/
def OwnError (tr : List Event) (fallback : Option Error) : Prop :=
  ∃ r, .callbackBegun r ∈ tr ∧ r.fallback = some fallback

/-- The first error recorded so far. -/
def firstRecorded (tr : List Event) : Option Error :=
  tr.findSome? fun
    | .recorded e => some e
    | _ => none

/-- What the threads of the terminal callback rely on. -/
def Tells (tr : List Event) (sender : Bool) : Thread → Prop
  | .runnable .entered r => .callbackBegun r ∈ tr
  | .terminal (.first fallback) | .terminal (.done fallback) | .terminal (.take fallback) =>
    OwnError tr fallback
  | .terminal (.headers error) => ∃ fallback, .consumed fallback error ∈ tr
  | .terminal (.spawn e) => (∃ fallback, .consumed fallback (some e) ∈ tr) ∧ sender = false
  | .terminal .signal => sender = false
  | .task (.sendError e) => ∃ fallback, .consumed fallback (some e) ∈ tr
  | _ => True

theorem report_tells {error : Option Error} {tr : List Event}
    (h : ∃ fallback, .consumed fallback error ∈ tr) :
    Tells tr false (.terminal (Terminal.report error)) := by
  cases error with
  | none => rfl
  | some e => exact ⟨h, rfl⟩

theorem after_tells (op : GatedOp) (e : Option Error) (tr : List Event) (sender : Bool) :
    ∀ u ∈ op.after e, Tells tr sender u := by
  fun_cases GatedOp.after op e <;> simp [Tells]

theorem leave_tells (site : Site) (tr : List Event) (sender : Bool) :
    ∀ u ∈ site.leave, Tells tr sender u := by
  cases site <;> simp [Site.leave, Tells]

theorem callback_tells {r : Runnable} {tr : List Event} (sender : Bool)
    (h : .callbackBegun r ∈ tr) : Tells tr sender r.callback := by
  cases r <;> first | trivial | exact ⟨_, h, rfl⟩

theorem Tells.mono {tr tr' : List Event} {sender sender' : Bool} (htr : tr ⊆ tr')
    (hsender : sender = false → sender' = false) (h : Tells tr sender t) :
    Tells tr' sender' t := by
  have hconsumed : ∀ e, (∃ fallback, .consumed fallback e ∈ tr) →
      ∃ fallback, .consumed fallback e ∈ tr' :=
    fun e ⟨fallback, hmem⟩ => ⟨fallback, htr hmem⟩
  have hown : ∀ fallback, OwnError tr fallback → OwnError tr' fallback :=
    fun fallback ⟨r, hmem, hr⟩ => ⟨r, htr hmem, hr⟩
  cases t with
  | runnable stage r => cases stage <;> first | trivial | exact htr h
  | terminal p =>
    cases p with
    | first | done | take => exact hown _ h
    | headers error => exact hconsumed _ h
    | spawn e => exact ⟨hconsumed _ h.1, hsender h.2⟩
    | signal => exact hsender h
  | task p => cases p <;> first | trivial | exact hconsumed _ h
  | _ => trivial

theorem tells_one {tr : List Event} {sender : Bool} (h : Tells tr sender u) :
    ∀ v ∈ [u], Tells tr sender v := List.forall_mem_singleton.mpr h

theorem tells_two {v : Thread} {tr : List Event} {sender : Bool} (h : Tells tr sender u)
    (h' : Tells tr sender v) : ∀ w ∈ [u, v], Tells tr sender w :=
  List.forall_mem_cons.mpr ⟨h, tells_one h'⟩

theorem step_tells (h : step cfg s t ch = some (s', ts))
    (ht : Tells s.trace s.context.headersSender t) :
    ∀ u ∈ ts, Tells s'.trace s'.context.headersSender u := by
  revert h ht
  cases t <;> simp only [step]
  case terminal p =>
    fun_cases terminalStep s p ch <;> first | exact of_none | (apply of_some; intro ht)
    case case4 fallback =>
      exact tells_one ⟨fallback, List.mem_append_right _ (List.mem_singleton_self _)⟩
    case case6 error _ _ =>
      obtain ⟨fallback, hmem⟩ := ht
      exact tells_one (report_tells ⟨fallback, List.mem_append_left _ hmem⟩)
    case case7 error _ hsender =>
      refine tells_one ?_
      rw [show s.context.headersSender = false by simpa using hsender]
      exact report_tells ht
    all_goals simp_all [Tells, OwnError]
  case runnable stage r =>
    fun_cases runnableStep s stage r ch <;> first | exact of_none | (apply of_some; intro ht)
    all_goals first
      | exact tells_one (callback_tells _ ht)
      | exact tells_one trivial
      | exact List.forall_mem_nil _
      | simp [Tells]
  case control p =>
    fun_cases controlStep s p ch <;> first | exact of_none | (apply of_some; intro ht)
    all_goals first
      | exact after_tells _ _ _ _
      | exact tells_one trivial
      | exact List.forall_mem_nil _
  case read p =>
    fun_cases readStep s p ch <;> first | exact of_none | (apply of_some; intro ht)
    all_goals first | exact leave_tells _ _ _ | exact tells_one trivial
  case outside who =>
    fun_cases outsideStep s who ch <;> first | exact of_none | (apply of_some; intro ht)
    all_goals first | exact tells_two trivial trivial | simp [Tells]
  case start p =>
    fun_cases startStep s p ch <;> first | exact of_none | (apply of_some; intro ht)
    all_goals first | exact tells_one trivial | exact tells_two trivial trivial | simp [Tells]
  case shutdown p =>
    fun_cases shutdownStep s p ch <;> first | exact of_none | (apply of_some; intro ht)
    all_goals exact tells_one trivial
  case callback p =>
    fun_cases callbackStep cfg s p ch <;> first | exact of_none | (apply of_some; intro ht)
    all_goals first | exact tells_one trivial | exact tells_two trivial trivial
  case task p =>
    fun_cases taskStep cfg s p ch <;> first | exact of_none | (apply of_some; intro ht)
    all_goals first | exact tells_one trivial | exact List.forall_mem_nil _
  case upload p =>
    fun_cases uploadStep cfg s p ch <;> first | exact of_none | (apply of_some; intro ht)
    all_goals first | exact tells_one trivial | exact tells_two trivial trivial | simp [Tells]
  case cleanup p =>
    fun_cases cleanupStep s p ch <;> first | exact of_none | (apply of_some; intro ht)
    all_goals first | exact tells_one trivial | exact tells_two trivial trivial | simp [Tells]
  case execute p =>
    fun_cases executeStep s p ch <;> first | exact of_none | (apply of_some; intro ht)
    all_goals first | exact tells_one trivial | exact List.forall_mem_nil _

attribute [local simp] Tells

/-! ## The invariant -/

/-- What the trace says of the error slot and of the header future. -/
structure Told (s : Shared) : Prop where
  /-- `done` is set where the trace says so. -/
  done : .done ∈ s.trace ↔ s.control.done = true
  /-- Behind the signal the headers were sent. -/
  signal : s.context.terminalSignal = true → s.context.headersSender = false
  /-- Until it is taken, the slot has the first error that was recorded. -/
  pending : (∀ fallback error, .consumed fallback error ∉ s.trace) →
    s.context.requestError = firstRecorded s.trace
  /-- What is taken is the first error that was recorded, or the callback's own. -/
  consumed : Trace.Justified (fun l e => ∀ fallback error, e = .consumed fallback error →
    error = (firstRecorded l).or fallback ∧ OwnError l fallback) s.trace
  /-- Headers that are told of an error are told of the one that was taken. -/
  terminalHeaders : ∀ e, .terminalHeaders e ∈ s.trace → ∃ fallback error,
    .consumed fallback error ∈ s.trace ∧ e = error.getD .callbackChannelClosed
  /-- So is the body. -/
  bodyError : ∀ e, .bodyError e ∈ s.trace → ∃ fallback, .consumed fallback (some e) ∈ s.trace
  /-- The future has the response or an error. -/
  future : ∀ r, s.context.headers = some r →
    (∃ info, r = .ok info ∧ .responseHeaders info ∈ s.trace) ∨
    ∃ e, r = .error e ∧ .terminalHeaders e ∈ s.trace
  /-- Headers that were sent are there for a receiver. -/
  resolved : s.context.headersSender = false → s.context.headersReceiver = true →
    s.context.headers.isSome = true

theorem firstRecorded_append (tr : List Event) (e : Error) :
    firstRecorded (tr ++ [.recorded e]) = (firstRecorded tr).or (some e) := by
  simp [firstRecorded, List.findSome?_append]

theorem firstRecorded_other (tr : List Event) {e : Event} (he : ∀ err, e ≠ .recorded err) :
    firstRecorded (tr ++ [e]) = firstRecorded tr := by
  cases e <;> first
    | exact absurd rfl (he _)
    | simp [firstRecorded, List.findSome?_append]

/-- The two flags of the terminal callback. -/
theorem step_flags (h : step cfg s t ch = some (s', ts))
    (ht : Tells s.trace s.context.headersSender t)
    (hdone : .done ∈ s.trace ↔ s.control.done = true)
    (hsignal : s.context.terminalSignal = true → s.context.headersSender = false) :
    (.done ∈ s'.trace ↔ s'.control.done = true) ∧
    (s'.context.terminalSignal = true → s'.context.headersSender = false) := by
  revert h ht
  cases t <;> simp only [step]
  case outside who =>
    fun_cases outsideStep s who ch <;> first | exact of_none | apply of_some
    all_goals
      intro ht
      simp_all
  case start p =>
    fun_cases startStep s p ch <;> first | exact of_none | (apply of_some; intro ht; simp_all)
  case shutdown p =>
    fun_cases shutdownStep s p ch <;> first | exact of_none | apply of_some
    all_goals
      intro ht
      simp_all
  case control p =>
    fun_cases controlStep s p ch <;> first | exact of_none | (apply of_some; intro ht; simp_all)
  case runnable stage r =>
    fun_cases runnableStep s stage r ch <;> first | exact of_none | apply of_some
    all_goals
      intro ht
      simp_all
  case callback p =>
    fun_cases callbackStep cfg s p ch <;> first | exact of_none | apply of_some
    all_goals
      intro ht
      simp_all
  case read p =>
    fun_cases readStep s p ch <;> first | exact of_none | (apply of_some; intro ht; simp_all)
  case terminal p =>
    fun_cases terminalStep s p ch <;> first | exact of_none | apply of_some
    all_goals
      intro ht
      simp_all
  case task p =>
    fun_cases taskStep cfg s p ch <;> first | exact of_none | apply of_some
    all_goals
      intro ht
      simp_all
  case upload p =>
    fun_cases uploadStep cfg s p ch <;> first | exact of_none | apply of_some
    all_goals
      intro ht
      simp_all
  case cleanup p =>
    fun_cases cleanupStep s p ch <;> first | exact of_none | (apply of_some; intro ht; simp_all)
  case execute p =>
    fun_cases executeStep s p ch <;> first | exact of_none | (apply of_some; intro ht; simp_all)

/-- What is told was told before, unless this step tells it. -/
theorem mem_of_append {e e' : Event} (hevent : s'.trace = s.trace ++ [e']) (hne : e ≠ e')
    (hmem : e ∈ s'.trace) : e ∈ s.trace := by
  rw [hevent, List.mem_append, List.mem_singleton] at hmem
  rcases hmem with hmem | rfl
  · exact hmem
  · contradiction

theorem mem_of_quiet {e : Event} (he : e.tells = true)
    (hevent : s'.trace = s.trace ∨ ∃ e, s'.trace = s.trace ++ [e] ∧ e.tells = false)
    (hmem : e ∈ s'.trace) : e ∈ s.trace := by
  rcases hevent with heq | ⟨e', heq, hquiet⟩
  · rw [← heq]
    exact hmem
  · refine mem_of_append heq ?_ hmem
    rintro rfl
    rw [he] at hquiet
    contradiction

theorem Told.pending_step (hs : Told s) (htell : Telling s t s')
    (hnone : ∀ fallback error, .consumed fallback error ∉ s'.trace)
    (htrace : s.trace ⊆ s'.trace) : s'.context.requestError = firstRecorded s'.trace := by
  have hbefore := hs.pending fun fallback error hmem => hnone fallback error (htrace hmem)
  induction htell with
  | quiet hevent hrequest =>
    rcases hevent with heq | ⟨e, heq, hquiet⟩
    · rw [hrequest, heq, hbefore]
    · rw [hrequest, heq, hbefore, firstRecorded_other]
      rintro err rfl
      contradiction
  | recorded e heq hrequest => rw [hrequest, heq, hbefore, firstRecorded_append]
  | consumed fallback _ heq =>
    refine absurd ?_ (hnone fallback (s.context.requestError.or fallback))
    rw [heq]
    exact List.mem_append_right _ (List.mem_singleton_self _)
  | response info heq hrequest | terminal error _ heq hrequest =>
    rw [hrequest, heq, hbefore]
    refine (firstRecorded_other s.trace ?_).symm
    intro err h
    cases h

/-- The consumption takes the first error, or the callback's own. -/
theorem Told.consumed_step (hs : Told s) (htell : Telling s t s')
    (ht : Tells s.trace s.context.headersSender t)
    (hnone : ∀ fallback, t = .terminal (.take fallback) →
      ∀ fallback error, .consumed fallback error ∉ s.trace) :
    Trace.Justified (fun l e => ∀ fallback error, e = .consumed fallback error →
      error = (firstRecorded l).or fallback ∧ OwnError l fallback) s'.trace := by
  induction htell with
  | quiet hevent =>
    rcases hevent with heq | ⟨e, heq, hquiet⟩
    · rw [heq]
      exact hs.consumed
    · rw [heq]
      refine hs.consumed.append ?_
      rintro fallback error rfl
      contradiction
  | consumed fallback hthread heq =>
    rw [heq]
    refine hs.consumed.append ?_
    rintro fallback' error ⟨⟩
    rw [hs.pending (hnone fallback hthread)]
    subst hthread
    exact ⟨rfl, ht⟩
  | recorded e heq | response info heq | terminal error _ heq =>
    rw [heq]
    refine hs.consumed.append ?_
    intro fallback error h
    cases h

theorem Told.terminalHeaders_step (hs : Told s) (htell : Telling s t s')
    (htrace : s.trace ⊆ s'.trace) (ht : Tells s.trace s.context.headersSender t) (e : Error)
    (hmem : .terminalHeaders e ∈ s'.trace) : ∃ fallback error,
      .consumed fallback error ∈ s'.trace ∧ e = error.getD .callbackChannelClosed := by
  have hold : .terminalHeaders e ∈ s.trace → ∃ fallback error,
      .consumed fallback error ∈ s'.trace ∧ e = error.getD .callbackChannelClosed := by
    intro hmem
    obtain ⟨fallback, error, hconsumed, heq⟩ := hs.terminalHeaders e hmem
    exact ⟨fallback, error, htrace hconsumed, heq⟩
  induction htell with
  | quiet hevent => exact hold (mem_of_quiet rfl hevent hmem)
  | terminal error hthread heq =>
    rw [heq, List.mem_append, List.mem_singleton] at hmem
    rcases hmem with hmem | heq'
    · exact hold hmem
    · cases heq'
      subst hthread
      obtain ⟨fallback, hconsumed⟩ := ht
      exact ⟨fallback, error, htrace hconsumed, rfl⟩
  | consumed fallback _ heq | recorded e' heq | response info heq =>
    exact hold (mem_of_append heq nofun hmem)

theorem Told.bodyError_step (hs : Told s) (h : step cfg s t ch = some (s', ts))
    (htrace : s.trace ⊆ s'.trace) (ht : Tells s.trace s.context.headersSender t) (e : Error)
    (hmem : .bodyError e ∈ s'.trace) : ∃ fallback, .consumed fallback (some e) ∈ s'.trace := by
  have hold : .bodyError e ∈ s.trace → ∃ fallback, .consumed fallback (some e) ∈ s'.trace := by
    intro hmem
    obtain ⟨fallback, hconsumed⟩ := hs.bodyError e hmem
    exact ⟨fallback, htrace hconsumed⟩
  rcases step_event h with heq | ⟨e', heq, hcause⟩
  · rw [heq] at hmem
    exact hold hmem
  · rw [heq, List.mem_append, List.mem_singleton] at hmem
    rcases hmem with hmem | rfl
    · exact hold hmem
    · cases hcause
      obtain ⟨fallback, hconsumed⟩ := ht
      exact ⟨fallback, htrace hconsumed⟩

theorem Told.future_step (hs : Told s) (htell : Telling s t s') (htrace : s.trace ⊆ s'.trace)
    (r : Result ResponseInfo) (hr : s'.context.headers = some r) :
    (∃ info, r = .ok info ∧ .responseHeaders info ∈ s'.trace) ∨
    ∃ e, r = .error e ∧ .terminalHeaders e ∈ s'.trace := by
  have hold : s.context.headers = some r →
      (∃ info, r = .ok info ∧ .responseHeaders info ∈ s'.trace) ∨
      ∃ e, r = .error e ∧ .terminalHeaders e ∈ s'.trace := by
    intro hr
    rcases hs.future r hr with ⟨info, hok, hmem⟩ | ⟨e, herror, hmem⟩
    · exact .inl ⟨info, hok, htrace hmem⟩
    · exact .inr ⟨e, herror, htrace hmem⟩
  induction htell with
  | quiet _ _ hheaders | recorded _ _ _ hheaders | consumed _ _ _ hheaders =>
    rw [hheaders] at hr
    exact hold hr
  | response info heq _ _ hheaders =>
    rcases hheaders with ⟨-, hheaders⟩ | ⟨-, hheaders⟩
    · rw [hheaders] at hr
      cases hr
      refine .inl ⟨info, rfl, ?_⟩
      rw [heq]
      exact List.mem_append_right _ (List.mem_singleton_self _)
    · rw [hheaders] at hr
      exact hold hr
  | terminal error _ heq _ _ hheaders =>
    rcases hheaders with ⟨-, hheaders⟩ | ⟨-, hheaders⟩
    · rw [hheaders] at hr
      cases hr
      refine .inr ⟨_, rfl, ?_⟩
      rw [heq]
      exact List.mem_append_right _ (List.mem_singleton_self _)
    · rw [hheaders] at hr
      exact hold hr

theorem Told.resolved_step (hs : Told s) (htell : Telling s t s')
    (hsender : s'.context.headersSender = false) (hreceiver : s'.context.headersReceiver = true) :
    s'.context.headers.isSome = true := by
  induction htell with
  | quiet _ _ hheaders hkept hreceived =>
    rw [hheaders]
    exact hs.resolved (hkept ▸ hsender) (hreceived hreceiver)
  | recorded _ _ _ hheaders hkept hreceived | consumed _ _ _ hheaders hkept hreceived =>
    rw [hheaders]
    exact hs.resolved (hkept ▸ hsender) (hreceived ▸ hreceiver)
  | response info _ _ _ hheaders _ hreceived | terminal error _ _ _ _ hheaders _ hreceived =>
    rw [hreceived] at hreceiver
    rcases hheaders with ⟨-, hheaders⟩ | ⟨hclosed, -⟩
    · rw [hheaders]
      rfl
    · rw [hreceiver] at hclosed
      contradiction

theorem Telling.sender (htell : Telling s t s') (h : s.context.headersSender = false) :
    s'.context.headersSender = false := by
  induction htell with
  | quiet _ _ _ hkept | recorded _ _ _ _ hkept | consumed _ _ _ _ hkept => rw [hkept, h]
  | response _ _ _ _ _ hsent | terminal _ _ _ _ _ _ hsent => exact hsent

variable {allowed : Policy Shared Thread Choice} {c c' : Config Shared Thread}

/-- What holds of the report of a request, whatever Cronet does. -/
structure ReportInv (c : Config Shared Thread) : Prop where
  /-- One thread is on its way to set `done`. -/
  done : (!c.shared.context.state.terminal).toNat + c.shared.trace.countP Event.isDone +
    total Thread.toDone c.threads = 1
  /-- At most one is on its way to take the error. -/
  consumed : (!c.shared.context.state.terminal).toNat + c.shared.trace.countP Event.isConsumed +
    total Thread.toConsume c.threads ≤ 1
  /-- At most one is on its way to tell the body. -/
  bodyError : (!c.shared.context.state.terminal).toNat +
    c.shared.trace.countP Event.isBodyError + total Thread.toBodyError c.threads ≤ 1
  /-- The headers are sent once. -/
  headers : c.shared.context.headersSender.toNat + c.shared.trace.countP Event.isHeaders = 1
  /-- The threads tell what the trace says. -/
  tells : ∀ t ∈ c.threads, Tells c.shared.trace c.shared.context.headersSender t
  /-- The trace says what the slot and the future have. -/
  told : Told c.shared

theorem reportInv_init : ReportInv start.config where
  done := by simp [start, Listed.config]
  consumed := by simp [start, Listed.config]
  bodyError := by simp [start, Listed.config]
  headers := by simp [start, Listed.config]
  tells := by simp [start, Listed.config]
  told := by constructor <;> simp [start, Listed.config, firstRecorded, Trace.justified_nil]

/-- A terminal callback that is about to consume the error is the first to do so. -/
theorem ReportInv.untaken {fallback : Option Error} {rest : Multiset Thread}
    (hi : ReportInv ⟨s, .terminal (.take fallback) ::ₘ rest⟩) (fallback' error : Option Error) :
    .consumed fallback' error ∉ s.trace := by
  intro hconsumed
  have hone : (!s.context.state.terminal).toNat + s.trace.countP Event.isConsumed +
    total Thread.toConsume (Thread.terminal (.take fallback) ::ₘ rest) ≤ 1 := hi.consumed
  have hpos : 0 < s.trace.countP Event.isConsumed :=
    List.countP_pos_iff.mpr ⟨_, hconsumed, rfl⟩
  rw [total_cons] at hone
  simp only [Thread.toConsume] at hone
  omega

theorem reportInv_step (hi : ReportInv c) (hs : Step (step cfg) allowed c c') :
    ReportInv c' := by
  obtain ⟨_, hn⟩ := hs
  rename_i s s' t ts rest ch _
  have hmem : t ∈ t ::ₘ rest := Multiset.mem_cons_self t rest
  have htally := step_tally hn
  have htell := step_telling hn
  have htrace := (step_frame hn).trace.subset
  have ht := hi.tells t hmem
  have hflags := step_flags hn ht hi.told.done hi.told.signal
  have hnone : ∀ fallback, t = .terminal (.take fallback) →
      ∀ fallback error, .consumed fallback error ∉ s.trace := by
    rintro fallback rfl
    exact hi.untaken
  refine ⟨balance_step hi.done htally.done, budget_step hi.consumed htally.consumed,
    budget_step hi.bodyError htally.bodyError, htally.headers.trans hi.headers, ?_, ?_⟩
  · exact forall_step hi.tells (fun _ => step_tells hn ht)
      (fun u _ hu => hu.mono htrace htell.sender)
  · exact ⟨hflags.1, hflags.2, fun hnew => hi.told.pending_step htell hnew htrace,
      hi.told.consumed_step htell ht hnone, hi.told.terminalHeaders_step htell htrace ht,
      hi.told.bodyError_step hn htrace ht,
      hi.told.future_step htell htrace, hi.told.resolved_step htell⟩

theorem reportInv_reachable (h : Reachable (step cfg) allowed start.config c) :
    ReportInv c :=
  h.invariant reportInv_init (fun _ hi hs => reportInv_step hi hs)

/-! ## An error for every refused header -/

/-- A success answers an accepted `Read`. -/
def SucceedsInTurn : Policy Shared Thread Choice := fun c _ ch =>
  ch = .submit .succeeded → c.shared.native.reading.isSome = true

/-- What is documented of the order of reads, completions and success. -/
def ReadContract : Policy Shared Thread Choice := fun c t ch =>
  AnswersReads c t ch ∧ SucceedsInTurn c t ch

/-- The runnable answers a read. -/
def Runnable.answers : Runnable → Bool
  | .readCompleted _ _ _ | .succeeded => true
  | _ => false

/-- The operation answers a read. -/
def GatedOp.answers : GatedOp → Bool
  | .resumeRead _ => true
  | _ => false

/-- Threads that a `Read` has led to, or that lead to one. -/
def Thread.answers : Thread → Bool
  | .runnable _ r => r.answers
  | .callback .allocate | .callback (.ownCreated _) | .callback (.own _ _ _)
  | .callback (.account _ _ _) | .callback (.copy _ _ _) | .read (.call _ _)
  | .task (.send _ _) => true
  | .control (.lock op) | .control (.raw op) | .control (.done op) | .control (.call op) =>
    op.answers
  | .terminal (.first fallback) | .terminal (.done fallback) | .terminal (.take fallback)
  | .terminal (.headers fallback) => fallback.isNone
  | _ => false

theorem answers_none (h : (ts.all fun u => !u.answers) = true) :
    ∀ u ∈ ts, u.answers = true → t.answers = true := by
  intro u hu ha
  have hnot := List.all_eq_true.mp h u hu
  rw [ha] at hnot
  contradiction

theorem after_answers (op : GatedOp) (e : Option Error) :
    ∀ u ∈ op.after e, u.answers = true → t.answers = true := by
  fun_cases GatedOp.after op e <;> exact answers_none rfl

theorem leave_answers (site : Site) : ∀ u ∈ site.leave, u.answers = true → t.answers = true := by
  cases site <;> exact answers_none rfl

theorem submit_reading {n : Native} {r : Runnable} (h : (n.submit r).reading.isSome = true) :
    n.reading.isSome = true := by
  cases r with
  | readCompleted b _ _ =>
    rw [Native.submit] at h
    dsimp only at h
    split at h
    · contradiction
    · exact h
  | succeeded => contradiction
  | _ => exact h

/-- A thread that a `Read` has led to finds the header future resolved. -/
theorem step_answers (h : step cfg s t ch = some (s', ts))
    (hcontract : ∀ r, ch = .submit r → r.answers = true → s.native.reading.isSome = true)
    (ht : t.answers = true → s.context.headersSender = false)
    (hreading : s.native.reading.isSome = true → s.context.headersSender = false) :
    (∀ u ∈ ts, u.answers = true → s'.context.headersSender = false) ∧
    (s'.native.reading.isSome = true → s'.context.headersSender = false) := by
  have hpass : (∀ u ∈ ts, u.answers = true → t.answers = true) →
      s'.native.reading = s.native.reading →
      s'.context.headersSender = s.context.headersSender →
      (∀ u ∈ ts, u.answers = true → s'.context.headersSender = false) ∧
      (s'.native.reading.isSome = true → s'.context.headersSender = false) := by
    intro hts hread hsender
    rw [hread, hsender]
    exact ⟨fun u hu ha => ht (hts u hu ha), hreading⟩
  revert h ht hpass
  cases t <;> simp only [step]
  case outside who =>
    fun_cases outsideStep s who ch <;> first | exact of_none | (apply of_some; intro ht hpass)
    case case1 r _ =>
      refine ⟨?_, fun hr => hreading (submit_reading hr)⟩
      simp only [List.mem_cons, List.not_mem_nil, or_false]
      rintro u (rfl | rfl) ha
      · contradiction
      · exact hreading (hcontract r rfl ha)
    all_goals exact hpass (answers_none rfl) rfl rfl
  case start p =>
    fun_cases startStep s p ch <;> first | exact of_none | apply of_some
    all_goals
      intro ht hpass
      exact hpass (answers_none rfl) rfl rfl
  case shutdown p =>
    fun_cases shutdownStep s p ch <;> first | exact of_none | apply of_some
    all_goals
      intro ht hpass
      exact hpass (answers_none rfl) rfl rfl
  case control p =>
    fun_cases controlStep s p ch <;> first | exact of_none | apply of_some
    all_goals
      intro ht hpass
      first
        | exact hpass (answers_none rfl) rfl rfl
        | exact hpass (List.forall_mem_singleton.mpr fun ha => ha) rfl rfl
        | exact hpass (after_answers _ _) rfl rfl
  case runnable stage r =>
    fun_cases runnableStep s stage r ch <;> first | exact of_none | apply of_some
    all_goals
      intro ht hpass
      cases r <;> first
      | exact hpass (answers_none rfl) rfl rfl
      | exact hpass (List.forall_mem_singleton.mpr fun ha => ha) rfl rfl
  case callback p =>
    fun_cases callbackStep cfg s p ch <;> first | exact of_none | (apply of_some; intro ht hpass)
    case case5 | case6 => exact ⟨fun _ _ _ => rfl, fun _ => rfl⟩
    case case7 hsender =>
      have hsent : s.context.headersSender = false := Bool.eq_false_iff.mpr hsender
      exact ⟨fun _ _ _ => hsent, fun _ => hsent⟩
    all_goals exact hpass (fun u hu ha => by first | rfl | exact answers_none rfl u hu ha) rfl rfl
  case read p =>
    fun_cases readStep s p ch <;> first | exact of_none | apply of_some
    all_goals
      intro ht hpass
      first
        | exact hpass (answers_none rfl) rfl rfl
        | exact hpass (leave_answers _) rfl rfl
        | exact ⟨fun _ _ _ => ht rfl, fun _ => ht rfl⟩
  case terminal p =>
    fun_cases terminalStep s p ch <;> first | exact of_none | (apply of_some; intro ht hpass)
    case case4 fallback =>
      refine hpass (List.forall_mem_singleton.mpr fun ha => ?_) rfl rfl
      have hnone : (s.context.requestError.or fallback).isNone = true := ha
      rw [Option.isNone_iff_eq_none, Option.or_eq_none_iff] at hnone
      rw [hnone.2]
      rfl
    case case6 error _ _ => exact ⟨fun _ _ _ => rfl, fun _ => rfl⟩
    case case7 error _ hsender =>
      have hsent : s.context.headersSender = false := Bool.eq_false_iff.mpr hsender
      exact ⟨fun _ _ _ => hsent, fun _ => hsent⟩
    all_goals first
      | exact hpass (answers_none rfl) rfl rfl
      | exact hpass (List.forall_mem_singleton.mpr fun ha => ha) rfl rfl
  case task p =>
    fun_cases taskStep cfg s p ch <;> first | exact of_none | apply of_some
    all_goals
      intro ht hpass
      first
        | exact hpass (answers_none rfl) rfl rfl
        | exact hpass (List.forall_mem_singleton.mpr fun _ => rfl) rfl rfl
        | exact hpass (answers_none rfl) (by simp) (by simp)
  case upload p =>
    fun_cases uploadStep cfg s p ch <;> first | exact of_none | apply of_some
    all_goals
      intro ht hpass
      exact hpass (answers_none rfl) rfl rfl
  case cleanup p =>
    fun_cases cleanupStep s p ch <;> first | exact of_none | apply of_some
    all_goals
      intro ht hpass
      first
        | exact hpass (answers_none rfl) rfl rfl
        | exact hpass (answers_none rfl) (by simp) (by simp)
  case execute p =>
    fun_cases executeStep s p ch <;> first | exact of_none | apply of_some
    all_goals
      intro ht hpass
      exact hpass (answers_none rfl) rfl rfl

/-- A header that is told of an error is told of one that was consumed. -/
structure HeadersInv (c : Config Shared Thread) : Prop where
  /-- Whoever answers a read comes behind the headers. -/
  answers : ∀ t ∈ c.threads, t.answers = true → c.shared.context.headersSender = false
  /-- So does a read. -/
  reading : c.shared.native.reading.isSome = true → c.shared.context.headersSender = false
  /-- The error was taken. -/
  error : ∀ e, .terminalHeaders e ∈ c.shared.trace →
    ∃ fallback, .consumed fallback (some e) ∈ c.shared.trace

theorem headersInv_init : HeadersInv start.config where
  answers := by simp [start, Listed.config, Thread.answers]
  reading := by simp [start, Listed.config]
  error := by simp [start, Listed.config]

theorem headersInv_step (hr : ReportInv c) (hi : HeadersInv c)
    (hs : Step (step cfg) ReadContract c c') : HeadersInv c' := by
  obtain ⟨⟨hreads, hsucceeds⟩, hn⟩ := hs
  rename_i s s' t ts rest ch
  have hmem : t ∈ t ::ₘ rest := Multiset.mem_cons_self t rest
  have hcontract : ∀ r, ch = .submit r → r.answers = true → s.native.reading.isSome = true := by
    rintro r rfl ha
    cases r with
    | readCompleted b n content =>
      rw [show s.native.reading = some b from hreads.2 b n content rfl]
      rfl
    | succeeded => exact hsucceeds rfl
    | _ => contradiction
  have hanswers := step_answers hn hcontract (hi.answers t hmem) hi.reading
  have htell := step_telling hn
  have htrace := (step_frame hn).trace.subset
  refine ⟨?_, hanswers.2, ?_⟩
  · exact forall_step hi.answers (fun _ => hanswers.1)
      (fun u _ hu ha => htell.sender (hu ha))
  · intro e he
    have hold : .terminalHeaders e ∈ s.trace →
        ∃ fallback, .consumed fallback (some e) ∈ s'.trace := by
      intro he
      obtain ⟨fallback, hconsumed⟩ := hi.error e he
      exact ⟨fallback, htrace hconsumed⟩
    induction htell with
    | quiet hevent => exact hold (mem_of_quiet rfl hevent he)
    | terminal error hthread heq _ hunsent =>
      rw [heq, List.mem_append, List.mem_singleton] at he
      rcases he with he | heq'
      · exact hold he
      · subst hthread
        cases error with
        | none =>
          have hsent := hi.answers _ hmem rfl
          simp only at hsent
          rw [hunsent] at hsent
          contradiction
        | some e' =>
          cases heq'
          obtain ⟨fallback, hconsumed⟩ := hr.tells _ hmem
          exact ⟨fallback, htrace hconsumed⟩
    | consumed fallback _ heq | recorded e' heq | response info heq =>
      exact hold (mem_of_append heq nofun he)

theorem headersInv_reachable (h : Reachable (step cfg) ReadContract start.config c) :
    HeadersInv c := by
  induction h with
  | refl => exact headersInv_init
  | tail hr hs ih => exact headersInv_step (reportInv_reachable hr) ih hs

end TokioCronet.Request
