import TokioCronet.Lib.Trace
import TokioCronet.Request.Ledgers

/-!
# The life of the native request

What protects the native request while something may still use it: the gate
around every call that goes through `RequestControl`, the single owner that
destroys it, and the order in which the cleanup task looks at the terminal
signal, the finished info and the lease count. These facts hold under every
schedule and for every behaviour of Cronet; what they do not give is that the
callbacks of the request are over when the cleanup task finds no lease.
-/

namespace TokioCronet.Request

open Pool

variable {cfg : Settings} {s s' : Shared} {t u : Thread} {ch : Choice} {ts : List Thread}

/-! ## Annotations -/

/-- The native side has made no callback and will not make one. -/
def Native.Silent (n : Native) : Prop := n.accepting = false ∧ n.submitted = false

/-- Before the start nothing was submitted. -/
def Start.Sound (n : Native) : Start → Prop
  | .startReturn | .loadCancel | .spawn | .returned _ => True
  | _ => n.Silent

/-- A request that was registered too late is given up unstarted. -/
def GatedOp.Sound (n : Native) : GatedOp → Prop
  | .cancel .registering => n.Silent
  | _ => True

/-- `raw` was found set under the gate. -/
def Control.Sound (raw : Bool) (n : Native) : Control → Prop
  | .statusLoad => True
  | .store who => GatedOp.Sound n (.cancel who)
  | .lock op | .raw op | .unlock op _ => op.Sound n
  | .done op | .call op => raw = true ∧ op.Sound n

/-- Under the gate the pointer is there. -/
def Site.Sound (raw : Bool) : Site → Prop
  | .gated _ => raw = true
  | _ => True

/-- A call of `Read` is where it can be with the pointer as it is. -/
def Read.Sound (raw : Bool) : Read → Prop
  | .call site _ | .returned site _ _ | .record site _ | .cancel site => site.Sound raw
  | .unlockHeaders => True

/-- What has been handed over of the two last callbacks. -/
def Runnable.Submitted (n : Native) : Runnable → Prop
  | .succeeded | .failed _ | .canceled => n.terminalSubmitted = true
  | .finished _ => n.finishedSubmitted = true
  | _ => True

/-- What has begun of them. -/
def Runnable.Begun (n : Native) : Runnable → Prop
  | .succeeded | .failed _ | .canceled => n.terminalBegun = true
  | .finished _ => n.finishedBegun = true
  | _ => True

/-- A runnable was submitted, and begun if it is running. -/
def Stage.Sound (n : Native) (r : Runnable) : Stage → Prop
  | .entered => r.Begun n
  | _ => r.Submitted n

/-- The callback was begun. -/
def Callback.Sound (n : Native) : Callback → Prop
  | .finished _ => n.finishedBegun = true
  | _ => True

/-- The cleanup task has seen no lease, or nothing was ever started. -/
def Dropper.Sound (s : Shared) : Dropper → Prop
  | .cleanup => .quiesced ∈ s.trace
  | .failed _ => s.native.Silent

/-- A started request is destroyed only when it is done. -/
def Dropper.Done (control : RequestControl) : Dropper → Prop
  | .cleanup => control.done = true
  | .failed _ => True

/-- `control.done` is set before anything is reported. -/
def Terminal.Sound (s : Shared) : Terminal → Prop
  | .first _ | .done _ => s.native.terminalBegun = true
  | _ => s.native.terminalBegun = true ∧ s.control.done = true

/-- The cleanup has waited for all that it needs. -/
def Cleanup.Sound (s : Shared) : Cleanup → Prop
  | .terminal => True
  | .finished => s.native.terminalBegun = true ∧ s.control.done = true
  | .count | .arm | .recheck _ | .park _ =>
    (s.native.terminalBegun = true ∧ s.control.done = true) ∧ s.native.finishedBegun = true
  | .drop why => why.Sound s
  | .gate why | .raw why => why.Sound s ∧ why.Done s.control
  | .destroy why => (why.Sound s ∧ why.Done s.control) ∧ s.control.raw = false
  | .unlock _ | .buffer _ | .context _ => .destroy ∈ s.trace

/-- What a thread may rely on where it stands. -/
def Sound (s : Shared) : Thread → Prop
  | .start p => p.Sound s.native
  | .control p => p.Sound s.control.raw s.native
  | .runnable stage r => stage.Sound s.native r
  | .callback p => p.Sound s.native
  | .read p => p.Sound s.control.raw
  | .terminal p => p.Sound s
  | .cleanup p => p.Sound s
  | _ => True

/-- What the shared state says by itself. -/
@[mk_iff]
structure Signals (s : Shared) : Prop where
  /-- The terminal signal comes from the terminal callback. -/
  terminal : s.context.terminalSignal = true →
    s.native.terminalBegun = true ∧ s.control.done = true
  /-- The finished signal comes from its callback. -/
  finished : s.context.finished.isSome = true → s.native.finishedBegun = true
  /-- The terminal callback was submitted. -/
  terminalBegun : s.native.terminalBegun = true → s.native.terminalSubmitted = true
  /-- The finished callback was submitted. -/
  finishedBegun : s.native.finishedBegun = true → s.native.finishedSubmitted = true
  /-- The cleanup has waited for both. -/
  quiesced : .quiesced ∈ s.trace →
    (s.native.terminalBegun = true ∧ s.control.done = true) ∧ s.native.finishedBegun = true
  /-- `destroy_request` clears the pointer first. -/
  raw : .destroy ∈ s.trace → s.control.raw = false
  /-- Only the cleanup task destroys a request that may have made callbacks. -/
  destroyed : .destroy ∈ s.trace → .quiesced ∈ s.trace ∨ s.native.Silent

/-! ## What a step leaves alone -/

/-- What a thread that neither owns the native request nor holds the gate cannot
touch, and what nobody takes back. -/
structure Frame (s : Shared) (t : Thread) (s' : Shared) : Prop where
  /-- Only the owner asks Cronet for something first. -/
  silent : t.owner = 0 → s.native.Silent → s'.native.Silent
  /-- The pointer is cleared only under the gate. -/
  rawKept : t.gate = 0 → s.control.raw = true → s'.control.raw = true
  /-- The pointer is set only by the owner. -/
  rawCleared : t.owner = 0 → s.control.raw = false → s'.control.raw = false
  /-- `done` is not taken back. -/
  done : s.control.done = true → s'.control.done = true
  /-- Neither is the submission of the terminal callback. -/
  terminalSubmitted : s.native.terminalSubmitted = true → s'.native.terminalSubmitted = true
  /-- Neither is that of the finished callback. -/
  finishedSubmitted : s.native.finishedSubmitted = true → s'.native.finishedSubmitted = true
  /-- What has begun has begun. -/
  terminalBegun : s.native.terminalBegun = true → s'.native.terminalBegun = true
  /-- So has the finished callback. -/
  finishedBegun : s.native.finishedBegun = true → s'.native.finishedBegun = true
  /-- The trace grows. -/
  trace : s.trace <+: s'.trace
  /-- What was asked for was asked for. -/
  submitted : s.native.submitted = true → s'.native.submitted = true

@[simp] theorem submit_terminalSubmitted (n : Native) (r : Runnable)
    (h : n.terminalSubmitted = true) : (n.submit r).terminalSubmitted = true := by
  cases r <;> first | rfl | exact h

@[simp] theorem submit_finishedSubmitted (n : Native) (r : Runnable)
    (h : n.finishedSubmitted = true) : (n.submit r).finishedSubmitted = true := by
  cases r <;> first | rfl | exact h

section Untouched

variable (n : Native) (r : Runnable) (b : BufferId) (code : Option ResultCode)

@[simp] theorem submit_terminalBegun : (n.submit r).terminalBegun = n.terminalBegun := by
  cases r <;> rfl

@[simp] theorem submit_finishedBegun : (n.submit r).finishedBegun = n.finishedBegun := by
  cases r <;> rfl

@[simp] theorem begin_accepting : (n.begin r).accepting = n.accepting := by
  cases r <;> rfl

@[simp] theorem begin_submitted : (n.begin r).submitted = n.submitted := by
  cases r <;> rfl

@[simp] theorem begin_terminalSubmitted :
    (n.begin r).terminalSubmitted = n.terminalSubmitted := by
  cases r <;> rfl

@[simp] theorem begin_finishedSubmitted :
    (n.begin r).finishedSubmitted = n.finishedSubmitted := by
  cases r <;> rfl

@[simp] theorem read_accepting : (n.read b code).accepting = n.accepting := by
  fun_cases Native.read n b code <;> rfl

@[simp] theorem read_submitted : (n.read b code).submitted = n.submitted := by
  fun_cases Native.read n b code <;> rfl

@[simp] theorem read_terminalSubmitted :
    (n.read b code).terminalSubmitted = n.terminalSubmitted := by
  fun_cases Native.read n b code <;> rfl

@[simp] theorem read_finishedSubmitted :
    (n.read b code).finishedSubmitted = n.finishedSubmitted := by
  fun_cases Native.read n b code <;> rfl

@[simp] theorem read_terminalBegun : (n.read b code).terminalBegun = n.terminalBegun := by
  fun_cases Native.read n b code <;> rfl

@[simp] theorem read_finishedBegun : (n.read b code).finishedBegun = n.finishedBegun := by
  fun_cases Native.read n b code <;> rfl

end Untouched

@[simp] theorem begin_terminalBegun (n : Native) (r : Runnable)
    (h : n.terminalBegun = true) : (n.begin r).terminalBegun = true := by
  cases r <;> first | rfl | exact h

@[simp] theorem begin_finishedBegun (n : Native) (r : Runnable)
    (h : n.finishedBegun = true) : (n.begin r).finishedBegun = true := by
  cases r <;> first | rfl | exact h

theorem Frame.still (hnative : s'.native = s.native) (hraw : s'.control.raw = s.control.raw)
    (hdone : s'.control.done = s.control.done) (htrace : s.trace <+: s'.trace) :
    Frame s t s' where
  silent := fun _ h => hnative ▸ h
  rawKept := fun _ h => hraw.trans h
  rawCleared := fun _ h => hraw.trans h
  done := fun h => hdone.trans h
  terminalSubmitted := fun h => hnative ▸ h
  finishedSubmitted := fun h => hnative ▸ h
  terminalBegun := fun h => hnative ▸ h
  finishedBegun := fun h => hnative ▸ h
  trace := htrace
  submitted := fun h => hnative ▸ h

/-- **Every step respects the frame.** -/
theorem step_frame (h : step cfg s t ch = some (s', ts)) : Frame s t s' := by
  revert h
  cases t <;> simp only [step]
  case outside who =>
    fun_cases outsideStep s who ch <;> first | exact of_none | apply of_some
    all_goals first
      | exact .still rfl rfl rfl (by simp)
      | (constructor <;> simp_all [Native.Silent, Thread.owner, Thread.gate])
  case start p =>
    fun_cases startStep s p ch <;> first | exact of_none | apply of_some
    all_goals first
      | exact .still rfl rfl rfl (by simp)
      | (constructor <;> simp_all [Native.Silent, Thread.owner, Thread.gate])
  case shutdown p =>
    fun_cases shutdownStep s p ch <;> first | exact of_none | apply of_some
    all_goals exact .still rfl rfl rfl (by simp)
  case control p =>
    fun_cases controlStep s p ch <;> first | exact of_none | apply of_some
    all_goals exact .still rfl rfl rfl (by simp)
  case runnable stage r =>
    fun_cases runnableStep s stage r ch <;> first | exact of_none | apply of_some
    all_goals first
      | exact .still rfl rfl rfl (by simp)
      | (constructor <;> simp_all [Native.Silent, Thread.owner, Thread.gate])
  case callback p =>
    fun_cases callbackStep cfg s p ch <;> first | exact of_none | apply of_some
    all_goals first
      | exact .still rfl rfl rfl (by simp)
      | (constructor <;> simp_all [Native.Silent, Thread.owner, Thread.gate])
  case read p =>
    fun_cases readStep s p ch <;> first | exact of_none | apply of_some
    all_goals first
      | exact .still rfl rfl rfl (by simp)
      | (constructor <;> simp_all [Native.Silent, Thread.owner, Thread.gate])
  case terminal p =>
    fun_cases terminalStep s p ch <;> first | exact of_none | apply of_some
    all_goals first
      | exact .still rfl rfl rfl (by simp)
      | (constructor <;> simp_all [Native.Silent, Thread.owner, Thread.gate])
  case task p =>
    fun_cases taskStep cfg s p ch <;> first | exact of_none | apply of_some
    all_goals first
      | exact .still rfl rfl rfl (by simp)
      | (constructor <;> simp_all [Native.Silent, Thread.owner, Thread.gate])
  case upload p =>
    fun_cases uploadStep cfg s p ch <;> first | exact of_none | apply of_some
    all_goals exact .still rfl rfl rfl (by simp)
  case cleanup p =>
    fun_cases cleanupStep s p ch <;> first | exact of_none | apply of_some
    all_goals first
      | exact .still rfl rfl rfl (by simp)
      | (constructor <;> simp_all [Native.Silent, Thread.owner, Thread.gate])
  case execute p =>
    fun_cases executeStep s p ch <;> first | exact of_none | apply of_some
    all_goals exact .still rfl rfl rfl (by simp)

/-! ## Annotations along a step -/

theorem after_sound {op : GatedOp} {e : Option Error} (h : op.Sound s.native) :
    ∀ u ∈ op.after e, Sound s u := by
  revert h
  fun_cases GatedOp.after op e <;> intro h u hu <;>
    simp only [List.not_mem_nil, List.mem_singleton] at hu <;> subst hu <;> exact h

theorem leave_sound (site : Site) : ∀ u ∈ site.leave, Sound s u := by
  intro u hu
  cases site <;> rw [Site.leave, List.mem_singleton] at hu <;> subst hu <;> trivial

theorem callback_sound {r : Runnable} (h : r.Begun s.native) : Sound s r.callback := by
  cases r <;> exact h

theorem report_sound {e : Option Error}
    (h : s.native.terminalBegun = true ∧ s.control.done = true) :
    (Terminal.report e).Sound s := by
  cases e <;> exact h

theorem Dropper.Sound.quiesced_or_silent {why : Dropper} (h : why.Sound s) :
    .quiesced ∈ s.trace ∨ s.native.Silent := by
  cases why with
  | cleanup => exact .inl h
  | failed e => exact .inr h

theorem submit_submits (n : Native) (r : Runnable) : r.Submitted (n.submit r) := by
  cases r <;> trivial

theorem begin_begins (n : Native) (r : Runnable) : r.Begun (n.begin r) := by
  cases r <;> trivial

/-- **A thread establishes for its successors what they rely on.** -/
theorem step_sound (h : step cfg s t ch = some (s', ts)) (ht : Sound s t) (hs : Signals s) :
    ∀ u ∈ ts, Sound s' u := by
  have hterminal := hs.terminal
  have hfinished := hs.finished
  clear hs
  revert h ht
  cases t <;> simp only [step]
  case outside who =>
    fun_cases outsideStep s who ch <;> first | exact of_none | apply of_some
    all_goals
      intro ht
      simp_all [Sound, Control.Sound, GatedOp.Sound, Stage.Sound, submit_submits]
  case start p =>
    fun_cases startStep s p ch <;> first | exact of_none | apply of_some
    all_goals
      intro ht
      simp_all [Sound, Start.Sound, Control.Sound, GatedOp.Sound, Cleanup.Sound, Dropper.Sound,
        Native.Silent,
        refuse]
  case shutdown p =>
    fun_cases shutdownStep s p ch <;> first | exact of_none | apply of_some
    all_goals
      intro ht
      simp_all [Sound, Control.Sound, GatedOp.Sound]
  case control p =>
    fun_cases controlStep s p ch <;> first | exact of_none | apply of_some
    all_goals
      intro ht
      first
        | exact after_sound ht
        | simp_all [Sound, Control.Sound, GatedOp.Sound, Read.Sound, Site.Sound]
  case runnable stage r =>
    fun_cases runnableStep s stage r ch <;> first | exact of_none | apply of_some
    all_goals
      intro ht
      first
        | exact List.forall_mem_singleton.mpr (callback_sound ht)
        | simp_all [Sound, Stage.Sound, begin_begins]
  case callback p =>
    fun_cases callbackStep cfg s p ch <;> first | exact of_none | apply of_some
    all_goals
      intro ht
      simp_all [Sound, Callback.Sound, Read.Sound, Site.Sound, Control.Sound, GatedOp.Sound]
  case read p =>
    fun_cases readStep s p ch <;> first | exact of_none | apply of_some
    all_goals
      intro ht
      first
        | exact leave_sound _
        | simp_all [Sound, Read.Sound, Callback.Sound]
  case terminal p =>
    fun_cases terminalStep s p ch <;> first | exact of_none | apply of_some
    all_goals
      intro ht
      first
        | exact List.forall_mem_singleton.mpr (report_sound ht)
        | simp_all [Sound, Terminal.Sound, Callback.Sound]
  case task p =>
    fun_cases taskStep cfg s p ch <;> first | exact of_none | apply of_some
    all_goals
      intro ht
      simp_all [Sound, Control.Sound, GatedOp.Sound]
  case upload p =>
    fun_cases uploadStep cfg s p ch <;> first | exact of_none | apply of_some
    all_goals
      intro ht
      simp_all [Sound]
  case cleanup p =>
    fun_cases cleanupStep s p ch <;> first | exact of_none | apply of_some
    all_goals
      intro ht
      simp_all [Sound, Cleanup.Sound, Dropper.Sound, Dropper.Done, Control.Sound, GatedOp.Sound,
        Native.Silent, refuse, Start.Sound]
  case execute p =>
    fun_cases executeStep s p ch <;> first | exact of_none | apply of_some
    all_goals
      intro ht
      simp_all [Sound, Control.Sound, GatedOp.Sound]

/-- The shared state keeps saying what it says; a thread that owns the native
request finds it undestroyed. -/
theorem step_signals (h : step cfg s t ch = some (s', ts)) (ht : Sound s t) (hs : Signals s)
    (howner : t.owner = 1 → .destroy ∉ s.trace) : Signals s' := by
  rw [signals_iff] at hs ⊢
  revert h ht howner
  cases t <;> simp only [step]
  case outside who =>
    fun_cases outsideStep s who ch <;> first | exact of_none | apply of_some
    all_goals
      intro ht howner
      first
        | exact hs
        | simp_all [Native.Silent]
  case start p =>
    fun_cases startStep s p ch <;> first | exact of_none | apply of_some
    all_goals
      intro ht howner
      first
        | exact hs
        | simp_all [Native.Silent, Thread.owner]
  case shutdown p =>
    fun_cases shutdownStep s p ch <;> first | exact of_none | apply of_some
    all_goals
      intro ht howner
      exact hs
  case control p =>
    fun_cases controlStep s p ch <;> first | exact of_none | apply of_some
    all_goals
      intro ht howner
      first
        | exact hs
        | simp_all
  case runnable stage r =>
    fun_cases runnableStep s stage r ch <;> first | exact of_none | apply of_some
    all_goals
      intro ht howner
      first
        | exact hs
        | (cases r <;> simp_all [Sound, Stage.Sound, Runnable.Submitted, Native.begin,
            Native.Silent])
  case callback p =>
    fun_cases callbackStep cfg s p ch <;> first | exact of_none | apply of_some
    all_goals
      intro ht howner
      first
        | exact hs
        | simp_all [Sound, Callback.Sound, Native.Silent]
  case read p =>
    fun_cases readStep s p ch <;> first | exact of_none | apply of_some
    all_goals
      intro ht howner
      first
        | exact hs
        | simp_all [Native.Silent]
  case terminal p =>
    fun_cases terminalStep s p ch <;> first | exact of_none | apply of_some
    all_goals
      intro ht howner
      first
        | exact hs
        | simp_all [Sound, Terminal.Sound]
  case task p =>
    fun_cases taskStep cfg s p ch <;> first | exact of_none | apply of_some
    all_goals
      intro ht howner
      first
        | exact hs
        | simp_all
  case upload p =>
    fun_cases uploadStep cfg s p ch <;> first | exact of_none | apply of_some
    all_goals
      intro ht howner
      first
        | exact hs
        | simp_all
  case cleanup p =>
    fun_cases cleanupStep s p ch <;> first | exact of_none | apply of_some
    all_goals
      intro ht howner
      first
        | exact hs
        | simp_all [Sound, Cleanup.Sound, Dropper.Sound, Native.Silent, Thread.owner]; done
        | simp_all [Sound, Cleanup.Sound, Thread.owner]
    exact ht.1.1.quiesced_or_silent
  case execute p =>
    fun_cases executeStep s p ch <;> first | exact of_none | apply of_some
    all_goals
      intro ht howner
      exact hs

/-! ## The invariant -/

theorem Runnable.Submitted.frame {r : Runnable} (hf : Frame s t s') (h : r.Submitted s.native) :
    r.Submitted s'.native := by
  cases r <;> first | trivial | exact hf.terminalSubmitted h | exact hf.finishedSubmitted h

theorem Runnable.Begun.frame {r : Runnable} (hf : Frame s t s') (h : r.Begun s.native) :
    r.Begun s'.native := by
  cases r <;> first | trivial | exact hf.terminalBegun h | exact hf.finishedBegun h

/-- A weight that only one thread carries. -/
theorem alone {m n : Nat} (h : m + n ≤ 1) (hn : n = 1) : m = 0 := by omega

theorem GatedOp.Sound.frame {op : GatedOp} (hf : Frame s t s') (ho : t.owner + op.owner ≤ 1)
    (h : op.Sound s.native) : op.Sound s'.native := by
  cases op with
  | cancel who => cases who <;> first | trivial | exact hf.silent (alone ho rfl) h
  | _ => trivial

theorem Dropper.Sound.frame {why : Dropper} (hf : Frame s t s') (ho : t.owner = 0)
    (h : why.Sound s) : why.Sound s' := by
  cases why with
  | cleanup => exact hf.trace.subset h
  | failed e => exact hf.silent ho h

theorem Dropper.Done.frame {why : Dropper} (hf : Frame s t s') (h : why.Done s.control) :
    why.Done s'.control := by
  cases why with
  | cleanup => exact hf.done h
  | failed e => trivial

/-- **What a thread relies on survives the steps of the others.** -/
theorem sound_other (hf : Frame s t s') (hgate : t.gate + u.gate ≤ 1)
    (howner : t.owner + u.owner ≤ 1) (hu : Sound s u) : Sound s' u := by
  cases u with
  | start p => cases p <;> first | trivial | exact hf.silent (alone howner rfl) hu
  | control p =>
    cases p with
    | statusLoad => trivial
    | store who => exact GatedOp.Sound.frame hf howner hu
    | lock op | raw op | unlock op => exact GatedOp.Sound.frame hf howner hu
    | done op | call op =>
      exact ⟨hf.rawKept (alone hgate rfl) hu.1, GatedOp.Sound.frame hf howner hu.2⟩
  | runnable stage r =>
    cases stage with
    | entered => exact Runnable.Begun.frame hf hu
    | queued | running => exact Runnable.Submitted.frame hf hu
  | callback p => cases p <;> first | trivial | exact hf.finishedBegun hu
  | read p =>
    cases p with
    | unlockHeaders => trivial
    | call site | returned site | record site | cancel site =>
      cases site <;> first | trivial | exact hf.rawKept (alone hgate rfl) hu
  | terminal p =>
    cases p with
    | first | done => exact hf.terminalBegun hu
    | take | headers | spawn | signal => exact ⟨hf.terminalBegun hu.1, hf.done hu.2⟩
  | cleanup p =>
    cases p with
    | terminal => trivial
    | finished => exact ⟨hf.terminalBegun hu.1, hf.done hu.2⟩
    | count | arm | recheck | park =>
      exact ⟨⟨hf.terminalBegun hu.1.1, hf.done hu.1.2⟩, hf.finishedBegun hu.2⟩
    | drop why => exact Dropper.Sound.frame hf (alone howner rfl) hu
    | gate why | raw why =>
      exact ⟨Dropper.Sound.frame hf (alone howner rfl) hu.1, Dropper.Done.frame hf hu.2⟩
    | destroy why =>
      have ht := alone howner rfl
      exact ⟨⟨Dropper.Sound.frame hf ht hu.1.1, Dropper.Done.frame hf hu.1.2⟩,
        hf.rawCleared ht hu.2⟩
    | unlock | buffer | context => exact hf.trace.subset hu
  | _ => trivial

/-- What holds in every configuration of a request, whatever Cronet does. -/
structure LifetimeInv (c : Config Shared Thread) : Prop where
  /-- The gate excludes. -/
  gate : c.shared.control.gate.toNat = total Thread.gate c.threads
  /-- `callback_count` counts the leases. -/
  lease : c.shared.context.callbackCount = total Thread.lease c.threads
  /-- There is one native request, destroyed once. -/
  owner : c.shared.trace.count .destroy + total Thread.owner c.threads ≤ 1
  /-- Before the first runnable there is no work. -/
  work : c.shared.native.submitted = false → total Thread.work c.threads = 0
  /-- The threads stand where they can. -/
  sound : ∀ t ∈ c.threads, Sound c.shared t
  /-- The signals come from their callbacks. -/
  signals : Signals c.shared

theorem lifetimeInv_init : LifetimeInv start.config where
  gate := by simp [start, Listed.config, Thread.gate]
  lease := by simp [start, Listed.config, Thread.lease]
  owner := by simp [start, Listed.config, Thread.owner]
  work := by simp [start, Listed.config, Thread.work, Thread.lease]
  sound := by simp [start, Listed.config, Sound, Start.Sound, Native.Silent]
  signals := by simp [start, Listed.config, signals_iff]

variable {allowed : Policy Shared Thread Choice} {c c' : Config Shared Thread}

/-- The thread that owns the native request finds it undestroyed. -/
theorem LifetimeInv.undestroyed (hi : LifetimeInv c) (ht : t ∈ c.threads) (ho : t.owner = 1) :
    .destroy ∉ c.shared.trace := by
  have hle : t.owner ≤ total Thread.owner c.threads := le_total ht
  have hone := hi.owner
  rw [← List.count_eq_zero]
  omega

/-- **The lifetime invariant is preserved by every step.** -/
theorem lifetimeInv_step (hi : LifetimeInv c) (hs : Step (step cfg) allowed c c') :
    LifetimeInv c' := by
  obtain ⟨_, hn⟩ := hs
  rename_i s s' t ts rest ch _
  have hmem : t ∈ t ::ₘ rest := Multiset.mem_cons_self t rest
  have hb := step_balance hn
  have hf := step_frame hn
  have hown := hi.sound t hmem
  refine ⟨?_, ?_, ?_, ?_, ?_, ?_⟩
  · exact ledger_step hi.gate hb.gate
  · exact ledger_step hi.lease hb.lease
  · exact budget_step hi.owner hb.owner
  · intro hsub
    have hle := hb.work hsub
    have hzero : total Thread.work (t ::ₘ rest) = 0 := by
      refine hi.work ?_
      by_contra hne
      rw [hf.submitted (by simpa using hne)] at hsub
      contradiction
    rw [total_cons] at hzero
    rw [total_add, total_coe]
    omega
  · refine forall_step hi.sound (fun _ => step_sound hn hown hi.signals) ?_
    intro u hu hsu
    refine sound_other hf ?_ ?_ hsu
    · have hadd : t.gate + u.gate ≤ total Thread.gate (t ::ₘ rest) := add_le_total hu
      rw [← hi.gate] at hadd
      exact hadd.trans (Bool.toNat_le _)
    · have hadd : t.owner + u.owner ≤ total Thread.owner (t ::ₘ rest) := add_le_total hu
      have hone : s.trace.count .destroy + total Thread.owner (t ::ₘ rest) ≤ 1 := hi.owner
      omega
  · exact step_signals hn hown hi.signals (fun ho => hi.undestroyed hmem ho)

theorem lifetimeInv_reachable (h : Reachable (step cfg) allowed start.config c) :
    LifetimeInv c :=
  h.invariant lifetimeInv_init (fun _ hi hs => lifetimeInv_step hi hs)

end TokioCronet.Request
