import TokioCronet.Request.Lifetime

/-!
# Destroying the native request

The cleanup task destroys the native request once the terminal signal and the
finished info have arrived and `callback_count` reads zero. A callback takes its
lease only after it has begun, a runnable begins whenever the runtime gets to it,
and an upload takes no lease at all. So the count may read zero while some of
them are still to come, and each of the three guarantees below needs one more
fact about that moment.
-/

namespace TokioCronet.Request

open Pool

variable {cfg : Settings} {s s' : Shared} {t u : Thread} {ch : Choice} {ts : List Thread}

/-! ## What may still reach the native objects -/

/-- Callbacks that have begun, with or without their lease. -/
def Thread.callbacks : Thread → Nat
  | .runnable .entered r => r.lease
  | t => t.lease

/-- Runnables that have not ended, at any stage. -/
def Thread.runnables : Thread → Nat
  | .runnable _ _ => 1
  | t => t.lease

/-- Whether the runnable calls the upload. -/
def Runnable.uploads : Runnable → Nat
  | .upload _ => 1
  | _ => 0

/-- Reads and rewinds of the upload that have not completed their sink. -/
def Thread.uploads : Thread → Nat
  | .runnable _ r => r.uploads
  | .upload .unlock | .upload .close => 0
  | .upload _ => 1
  | _ => 0

/-- Where each of these kinds of work comes from. -/
structure Growth (t : Thread) (ch : Choice) (ts : List Thread) : Prop where
  /-- The body of a callback begins only with a callback. -/
  callbacks : (∀ r, t = .runnable .running r → ch = .go → r.leases = false) →
    (ts.map Thread.callbacks).sum ≤ t.callbacks
  /-- Runnables come from Cronet. -/
  runnables : (∀ r, ch ≠ .submit r) → (ts.map Thread.runnables).sum ≤ t.runnables
  /-- Upload tasks come from Cronet. -/
  uploads : (∀ op, ch ≠ .submit (.upload op)) → (ts.map Thread.uploads).sum ≤ t.uploads

section Helpers

variable (op : GatedOp) (site : Site) (r : Runnable) (e : Option Error)

@[simp] theorem after_callbacks : ((op.after e).map Thread.callbacks).sum = op.lease := by
  fun_cases GatedOp.after op e <;> rfl

@[simp] theorem after_runnables : ((op.after e).map Thread.runnables).sum = op.lease := by
  fun_cases GatedOp.after op e <;> rfl

@[simp] theorem after_uploads : ((op.after e).map Thread.uploads).sum = 0 := by
  fun_cases GatedOp.after op e <;> rfl

@[simp] theorem leave_callbacks : (site.leave.map Thread.callbacks).sum = site.lease := by
  cases site <;> rfl

@[simp] theorem leave_runnables : (site.leave.map Thread.runnables).sum = site.lease := by
  cases site <;> rfl

@[simp] theorem leave_uploads : (site.leave.map Thread.uploads).sum = 0 := by
  cases site <;> rfl

end Helpers

theorem Growth.still (hcallbacks : (ts.map Thread.callbacks).sum = t.callbacks)
    (hrunnables : (ts.map Thread.runnables).sum = t.runnables)
    (huploads : (ts.map Thread.uploads).sum = t.uploads) : Growth t ch ts where
  callbacks := fun _ => hcallbacks.le
  runnables := fun _ => hrunnables.le
  uploads := fun _ => huploads.le

attribute [local simp] Thread.callbacks Thread.runnables Thread.uploads Thread.lease
  GatedOp.lease Site.lease Runnable.lease Runnable.uploads refuse

theorem step_growth (h : step cfg s t ch = some (s', ts)) : Growth t ch ts := by
  revert h
  cases t <;> simp only [step]
  case outside who =>
    fun_cases outsideStep s who ch <;> first | exact of_none | apply of_some
    all_goals first
      | exact .still rfl rfl rfl
      | (constructor <;> simp_all)
  case start p =>
    fun_cases startStep s p ch <;> first | exact of_none | apply of_some
    all_goals exact .still rfl rfl rfl
  case shutdown p =>
    fun_cases shutdownStep s p ch <;> first | exact of_none | apply of_some
    all_goals exact .still rfl rfl rfl
  case control p =>
    fun_cases controlStep s p ch <;> first | exact of_none | apply of_some
    all_goals first
      | exact .still rfl rfl rfl
      | (constructor <;> simp)
  case runnable stage r =>
    fun_cases runnableStep s stage r ch <;> first | exact of_none | apply of_some
    all_goals first
      | exact .still rfl rfl rfl
      | (constructor <;> cases r <;> simp_all [Runnable.leases, Runnable.callback])
  case callback p =>
    fun_cases callbackStep cfg s p ch <;> first | exact of_none | apply of_some
    all_goals first
      | exact .still rfl rfl rfl
      | (constructor <;> simp)
  case read p =>
    fun_cases readStep s p ch <;> first | exact of_none | apply of_some
    all_goals first
      | exact .still rfl rfl rfl
      | (constructor <;> simp)
  case terminal p =>
    fun_cases terminalStep s p ch <;> first | exact of_none | apply of_some
    all_goals exact .still rfl rfl rfl
  case task p =>
    fun_cases taskStep cfg s p ch <;> first | exact of_none | apply of_some
    all_goals exact .still rfl rfl rfl
  case upload p =>
    fun_cases uploadStep cfg s p ch <;> first | exact of_none | apply of_some
    all_goals first
      | exact .still rfl rfl rfl
      | (constructor <;> simp)
  case cleanup p =>
    fun_cases cleanupStep s p ch <;> first | exact of_none | apply of_some
    all_goals exact .still rfl rfl rfl
  case execute p =>
    fun_cases executeStep s p ch <;> first | exact of_none | apply of_some
    all_goals exact .still rfl rfl rfl

/-! ## Quiet after the check -/

variable {allowed : Policy Shared Thread Choice} {c c' : Config Shared Thread}

/-- Whenever the cleanup task finds no lease, no thread is busy in a certain way. -/
def IdleAtCheck (busy : Thread → Bool) : Policy Shared Thread Choice := fun c t _ =>
  t = .cleanup .count → c.shared.context.callbackCount = 0 → ∀ u ∈ c.threads, busy u = false

/-- **Work that is absent when the cleanup task finds no lease, and that nothing
starts from then on, stays absent.** -/
theorem quiet_reachable {w : Thread → Nat} {busy : Thread → Bool}
    (hcheck : ∀ {c t ch}, allowed c t ch → IdleAtCheck busy c t ch)
    (hbusy : ∀ u, u.lease = 0 → busy u = false → w u = 0)
    (hgrow : ∀ {c t ch ts}, LifetimeInv c → allowed c t ch → t ∈ c.threads → Growth t ch ts →
      .quiesced ∈ c.shared.trace ∨ t = .cleanup .count → (ts.map w).sum ≤ w t)
    (h : Reachable (step cfg) allowed start.config c) :
    .quiesced ∈ c.shared.trace → total w c.threads = 0 := by
  induction h with
  | refl =>
    intro hq
    simp [start, Listed.config] at hq
  | tail hr hs ih =>
    intro hq
    have hi := lifetimeInv_reachable hr
    obtain ⟨ha, hn⟩ := hs
    rename_i s s' t ts rest ch
    have hmem : t ∈ t ::ₘ rest := Multiset.mem_cons_self t rest
    have hzero : total w (t ::ₘ rest) = 0 ∧ (.quiesced ∈ s.trace ∨ t = .cleanup .count) := by
      rcases step_event hn with heq | ⟨e, heq, hcause⟩
      · have hq' : .quiesced ∈ s.trace := by rw [← heq]; exact hq
        exact ⟨ih hq', .inl hq'⟩
      · rw [heq, List.mem_append, List.mem_singleton] at hq
        rcases hq with hq | rfl
        · exact ⟨ih hq, .inl hq⟩
        · refine ⟨total_eq_zero.mpr ?_, .inr hcause.1⟩
          intro u hu
          refine hbusy u ?_ (hcheck ha hcause.1 hcause.2 u hu)
          have hlease : s.context.callbackCount = total Thread.lease (t ::ₘ rest) := hi.lease
          rw [hcause.2] at hlease
          exact total_eq_zero.mp hlease.symm u hu
    have hle := hgrow hi ha hmem (step_growth hn) hzero.2
    rw [total_cons] at hzero
    rw [total_add, total_coe]
    omega

/-- Nothing of a kind is left once the native request is destroyed. -/
theorem LifetimeInv.idle {w : Thread → Nat} (hi : LifetimeInv c) (hw : ∀ t, w t ≤ t.work)
    (hquiet : .quiesced ∈ c.shared.trace → total w c.threads = 0)
    (hd : .destroy ∈ c.shared.trace) : total w c.threads = 0 := by
  rcases hi.signals.destroyed hd with hq | hsilent
  · exact hquiet hq
  · have hwork := hi.work hsilent.2
    have hle : total w c.threads ≤ total Thread.work c.threads := total_le_total hw
    omega

theorem callbacks_le_work (t : Thread) : t.callbacks ≤ t.work := by
  cases t with
  | runnable stage r =>
    cases stage <;> simp [Thread.work, Bool.toNat_le]
  | upload p => exact Nat.zero_le _
  | _ => exact le_rfl

theorem runnables_le_work (t : Thread) : t.runnables ≤ t.work := by
  cases t with
  | upload p => exact Nat.zero_le _
  | _ => exact le_rfl

theorem callbacks_le_runnables (t : Thread) : t.callbacks ≤ t.runnables := by
  cases t with
  | runnable stage r => cases stage <;> simp [Bool.toNat_le]
  | _ => exact le_rfl

theorem uploads_le_work (t : Thread) : t.uploads ≤ t.work := by
  cases t with
  | runnable stage r => cases r <;> simp [Thread.work]
  | upload p => cases p <;> simp [Thread.work]
  | _ => exact Nat.zero_le _

/-! ## Schedules -/

/-- A schedule that names its threads. -/
abbrev Schedule := List (Thread × List Choice)

/-- Steps without a choice. -/
def go (n : Nat) : List Choice := List.replicate n .go

/-- `start_request` of a request that starts, up to its return. -/
def starts : Schedule :=
  [(.start .load, go 6 ++ [.result none, .go, .result none] ++ go 2)]

/-- Cronet submits a runnable, the runtime starts it, and it calls its extern
function. -/
def enters (r : Runnable) : Schedule :=
  [(.outside .cronet, [.submit r]), (.runnable .queued r, go 2)]

/-- `RequestHandle::cancel`. -/
def cancels : Schedule := [(.outside .app, [.cancel]), (.control (.store .app), go 6)]

/-- The canceled and the finished callback, from their submission to their end. -/
def endsCanceled : Schedule :=
  enters .canceled ++ [(.runnable .entered .canceled, go 6), (.terminal .signal, go 3)] ++
  enters (.finished 0) ++ [(.runnable .entered (.finished 0), go 4)]

/-- The cleanup task up to the native destruction. -/
def cleansUp : Schedule := [(.cleanup .terminal, go 7)]

/-- A response without headers. -/
def okInfo : ResponseInfo where
  url := "https://example.test/"
  urlChain := ["https://example.test/"]
  statusCode := 200
  statusText := "OK"
  headers := []
  wasCached := false
  negotiatedProtocol := "h2"
  proxyServer := ""
  receivedByteCount := 0

/-- A redirect is followed, the request is cancelled, and every callback has ended
before the cleanup task looks. -/
def leasedInTime : Schedule :=
  starts ++ enters (.redirectReceived okInfo "https://example.test/next") ++
  [(.runnable .entered (.redirectReceived okInfo "https://example.test/next"), go 5 ++
    [.result none] ++ go 4)] ++
  cancels ++ endsCanceled ++ cleansUp

/-- `IdleAtCheck` as a test. -/
def idleAtCheck (busy : Thread → Bool) (c : Listed Shared Thread) (t : Thread) : Bool :=
  !(t = .cleanup .count && c.shared.context.callbackCount = 0) || c.threads.all (!busy ·)

theorem idleAtCheck_sound (busy : Thread → Bool) (c : Listed Shared Thread) (t : Thread)
    (ch : Choice) (h : idleAtCheck busy c t = true) : IdleAtCheck busy c.config t ch := by
  intro ht hcount u hu
  have hzero : c.shared.context.callbackCount = 0 := hcount
  have hall : ∀ u ∈ c.threads, busy u = false := by
    simpa [idleAtCheck, ht, hzero] using h
  exact hall u (Multiset.mem_coe.mp hu)

/-! ## No native call on a destroyed request -/

/-- The native functions that take the pointer of the request. -/
def Event.usesRequest : Event → Bool
  | .init | .start | .read _ _ | .cancel | .followRedirect | .getStatus => true
  | _ => false

/-- Cronet begins no callback of the request after the terminal and the finished
callback have begun. -/
def BeginsInTime : Policy Shared Thread Choice := fun c t ch =>
  ∀ r, t = .runnable .running r → ch = .go → r.leases = true →
    ¬ (c.shared.native.terminalBegun = true ∧ c.shared.native.finishedBegun = true)

/-- A callback of the request that has begun and has not taken its lease. -/
def Thread.unleased : Thread → Bool
  | .runnable .entered r => r.leases
  | _ => false

theorem callbacks_quiet
    (h : Reachable (step cfg)
      (fun c t ch => BeginsInTime c t ch ∧ IdleAtCheck Thread.unleased c t ch) start.config c)
    (hq : .quiesced ∈ c.shared.trace) : total Thread.callbacks c.threads = 0 := by
  refine quiet_reachable (fun ha => ha.2) ?_ ?_ h hq
  · intro u hlease hbusy
    cases u with
    | runnable stage r =>
      cases stage with
      | entered =>
        have hr : r.leases = false := hbusy
        simp [hr]
      | queued | running => exact hlease
    | _ => exact hlease
  · rintro c t ch ts hi ⟨hbegins, -⟩ hmem hg hafter
    refine hg.callbacks ?_
    intro r hr hgo
    by_contra hleases
    refine hbegins r hr hgo (by simpa using hleases) ?_
    rcases hafter with hq | ht
    · exact ⟨(hi.signals.quiesced hq).1.1, (hi.signals.quiesced hq).2⟩
    · rw [ht] at hr
      cases hr

/-- Whoever calls a native function owns the request, holds the gate while the
pointer is set, or holds a lease. -/
theorem undestroyed_of_uses {e : Event} (hi : LifetimeInv c) (ht : t ∈ c.threads)
    (hcause : e.Cause c.shared t) (huses : e.usesRequest = true)
    (hquiet : .destroy ∈ c.shared.trace → total Thread.callbacks c.threads = 0) :
    .destroy ∉ c.shared.trace := by
  have hsound := hi.sound t ht
  have hgated : t.gate = 1 → c.shared.control.raw = true → .destroy ∉ c.shared.trace := by
    intro _ hraw hd
    rw [hi.signals.raw hd] at hraw
    contradiction
  have hleased : t.callbacks = 1 → .destroy ∉ c.shared.trace := by
    intro hone hd
    have hzero := total_eq_zero.mp (hquiet hd) t ht
    omega
  cases e with
  | init =>
    cases hcause
    exact hi.undestroyed ht rfl
  | start =>
    cases hcause
    exact hi.undestroyed ht rfl
  | read b code =>
    obtain ⟨site, rfl⟩ := hcause
    cases site with
    | callback | headers => exact hleased rfl
    | gated b => exact hgated rfl hsound
  | cancel =>
    rcases hcause with ⟨who, rfl⟩ | ⟨site, rfl⟩
    · exact hgated rfl hsound.1
    · cases site with
      | callback | headers => exact hleased rfl
      | gated b => exact hgated rfl hsound
  | followRedirect =>
    obtain ⟨who, rfl⟩ := hcause
    exact hgated rfl hsound.1
  | getStatus =>
    cases hcause
    exact hgated rfl hsound.1
  | _ => contradiction

/-- **A destroyed request is left alone.** If no callback stands between its entry
and its lease when the cleanup task reads `callback_count` as zero, no native
function is called on the request after it was destroyed, and it is destroyed at
most once. -/
theorem request_use_before_destroy
    (h : Reachable (step cfg)
      (fun c t ch => BeginsInTime c t ch ∧ IdleAtCheck Thread.unleased c t ch) start.config c) :
    Trace.Bars (· = .destroy) (·.usesRequest = true) c.shared.trace ∧
    c.shared.trace.count .destroy ≤ 1 := by
  have hdestroyed := (lifetimeInv_reachable h).owner
  refine ⟨?_, by omega⟩
  clear hdestroyed
  induction h with
  | refl => exact Trace.bars_nil
  | tail hr hs ih =>
    have hi := lifetimeInv_reachable hr
    have hquiet := hi.idle callbacks_le_work (callbacks_quiet hr)
    obtain ⟨ha, hn⟩ := hs
    rename_i s s' t ts rest ch
    rcases step_event hn with heq | ⟨e, heq, hcause⟩
    · rw [heq]
      exact ih
    · rw [heq]
      refine ih.append ?_
      rintro huses a hmem rfl
      exact undestroyed_of_uses hi (Multiset.mem_cons_self t rest) hcause huses hquiet hmem

/-- `on_response_started` is entered, the request is cancelled and its last two
callbacks run, the cleanup task finds no lease; then `on_response_started` takes
its lease, creates its buffer and calls `Cronet_UrlRequest_Read`. -/
def leasedLate : Schedule :=
  starts ++ enters (.responseStarted okInfo) ++ cancels ++ endsCanceled ++ cleansUp ++
  [(.runnable .entered (.responseStarted okInfo), go 4 ++ [.result none])]

/-- `BeginsInTime` as a test. -/
def beginsInTime (c : Listed Shared Thread) : Thread → Choice → Bool
  | .runnable .running r, .go =>
    !(r.leases && c.shared.native.terminalBegun && c.shared.native.finishedBegun)
  | _, _ => true

theorem beginsInTime_sound (c : Listed Shared Thread) (t : Thread) (ch : Choice)
    (h : beginsInTime c t ch = true) : BeginsInTime c.config t ch := by
  rintro r rfl rfl hr ⟨hterminal, hfinished⟩
  have hboth : (c.shared.native.terminalBegun && c.shared.native.finishedBegun) = true := by
    rw [Bool.and_eq_true]
    exact ⟨hterminal, hfinished⟩
  rw [beginsInTime, hr, Bool.true_and, hboth] at h
  contradiction

/-- **A callback that has begun but holds no lease yet outlives the request.** -/
theorem read_after_destroy :
    ∃ c, Reachable (step {}) BeginsInTime start.config c ∧
      ¬ Trace.Bars (· = .destroy) (·.usesRequest = true) c.shared.trace := by
  refine ⟨(Pool.play (step {}) beginsInTime start leasedLate).config,
    play_reachable beginsInTime_sound leasedLate Reachable.start, ?_⟩
  unfold Trace.Bars
  decide +kernel

/-! ## No runnable on a destroyed request -/

/-- Cronet hands over runnables of a kind only before both last callbacks. -/
def SubmitsInTime (kind : Runnable → Bool) : Policy Shared Thread Choice := fun c _ ch =>
  ∀ r, ch = .submit r → kind r = true →
    ¬ (c.shared.native.terminalSubmitted = true ∧ c.shared.native.finishedSubmitted = true)

/-- A runnable that has not come as far as its lease. -/
def Thread.unrun : Thread → Bool
  | .runnable _ _ => true
  | _ => false

/-- Both last callbacks are handed over when the cleanup task looks. -/
theorem LifetimeInv.handedOver (hi : LifetimeInv c) (ht : t ∈ c.threads)
    (hq : .quiesced ∈ c.shared.trace ∨ t = .cleanup .count) :
    c.shared.native.terminalSubmitted = true ∧ c.shared.native.finishedSubmitted = true := by
  have hbegun : c.shared.native.terminalBegun = true ∧ c.shared.native.finishedBegun = true := by
    rcases hq with hq | rfl
    · exact ⟨(hi.signals.quiesced hq).1.1, (hi.signals.quiesced hq).2⟩
    · have hsound : Cleanup.Sound c.shared .count := hi.sound _ ht
      exact ⟨hsound.1.1, hsound.2⟩
  exact ⟨hi.signals.terminalBegun hbegun.1, hi.signals.finishedBegun hbegun.2⟩

theorem runnables_quiet
    (h : Reachable (step cfg)
      (fun c t ch => SubmitsInTime (fun _ => true) c t ch ∧ IdleAtCheck Thread.unrun c t ch)
      start.config c)
    (hq : .quiesced ∈ c.shared.trace) : total Thread.runnables c.threads = 0 := by
  refine quiet_reachable (fun ha => ha.2) ?_ ?_ h hq
  · intro u hlease hbusy
    cases u with
    | runnable stage r => cases hbusy
    | _ => exact hlease
  · rintro c t ch ts hi ⟨hsubmits, -⟩ hmem hg hafter
    refine hg.runnables ?_
    rintro r rfl
    exact hsubmits r rfl rfl (hi.handedOver hmem hafter)

/-- A runnable is started, or its callback begins. -/
def Event.runs : Event → Bool
  | .runnableStarted _ | .callbackBegun _ => true
  | _ => false

/-- **No runnable starts on a destroyed request.** If the executor has run every
runnable of the request when the cleanup task reads `callback_count` as zero, then
after the destruction no runnable starts, no callback begins and no native
function is called on the request. -/
theorem runnables_before_destroy
    (h : Reachable (step cfg)
      (fun c t ch => SubmitsInTime (fun _ => true) c t ch ∧ IdleAtCheck Thread.unrun c t ch)
      start.config c) :
    Trace.Bars (· = .destroy) (fun e => e.runs = true ∨ e.usesRequest = true) c.shared.trace := by
  induction h with
  | refl => exact Trace.bars_nil
  | tail hr hs ih =>
    have hi := lifetimeInv_reachable hr
    have hquiet := hi.idle runnables_le_work (runnables_quiet hr)
    obtain ⟨ha, hn⟩ := hs
    rename_i s s' t ts rest ch
    have hmem : t ∈ t ::ₘ rest := Multiset.mem_cons_self t rest
    rcases step_event hn with heq | ⟨e, heq, hcause⟩
    · rw [heq]
      exact ih
    · rw [heq]
      refine ih.append ?_
      rintro (hruns | huses) a hd rfl
      · have hzero : t.runnables = 0 := total_eq_zero.mp (hquiet hd) t hmem
        cases e <;> cases hruns <;> cases hcause <;> exact absurd hzero Nat.one_ne_zero
      · have hcallbacks : .destroy ∈ s.trace → total Thread.callbacks (t ::ₘ rest) = 0 := by
          intro hd
          have hle : total Thread.callbacks (t ::ₘ rest) ≤ total Thread.runnables (t ::ₘ rest) :=
            total_le_total callbacks_le_runnables
          have hzero : total Thread.runnables (t ::ₘ rest) = 0 := hquiet hd
          omega
        exact undestroyed_of_uses hi hmem hcause huses hcallbacks hd

/-- `SubmitsInTime` as a test. -/
def submitsInTime (kind : Runnable → Bool) (c : Listed Shared Thread) : Choice → Bool
  | .submit r => !(kind r && c.shared.native.terminalSubmitted && c.shared.native.finishedSubmitted)
  | _ => true

theorem submitsInTime_sound (kind : Runnable → Bool) (c : Listed Shared Thread) (t : Thread)
    (ch : Choice) (h : submitsInTime kind c ch = true) : SubmitsInTime kind c.config t ch := by
  rintro r rfl hr ⟨hterminal, hfinished⟩
  have hboth : (c.shared.native.terminalSubmitted && c.shared.native.finishedSubmitted) = true := by
    rw [Bool.and_eq_true]
    exact ⟨hterminal, hfinished⟩
  rw [submitsInTime, hr, Bool.true_and, hboth] at h
  contradiction

theorem runnables_before_destroy_leasedInTime :
    .destroy ∈ (Pool.play (step {}) (fun c t ch => submitsInTime (fun _ => true) c ch &&
      idleAtCheck Thread.unrun c t) start leasedInTime).shared.trace ∧
    Trace.Bars (· = .destroy) (fun e => e.runs = true ∨ e.usesRequest = true)
      (Pool.play (step {}) (fun c t ch => submitsInTime (fun _ => true) c ch &&
        idleAtCheck Thread.unrun c t) start leasedInTime).config.shared.trace := by
  refine ⟨by decide +kernel, @runnables_before_destroy {} _ (play_reachable ?_ leasedInTime
    Reachable.start)⟩
  intro c t ch h
  rw [Bool.and_eq_true] at h
  exact ⟨submitsInTime_sound _ c t ch h.1, idleAtCheck_sound _ c t ch h.2⟩

/-- A runnable that has been handed over stays queued until the native request is
gone; then the runtime starts it. -/
def startedLate : Schedule :=
  starts ++ [(.outside .cronet, [.submit (.responseStarted okInfo)])] ++ cancels ++ endsCanceled ++
  cleansUp ++ [(.runnable .queued (.responseStarted okInfo), go 1)]

/-- **A queued runnable does not keep the request alive.** -/
theorem runnable_after_destroy :
    ∃ c, Reachable (step {}) (SubmitsInTime fun _ => true) start.config c ∧
      ¬ Trace.Bars (· = .destroy) (fun e => e.runs = true ∨ e.usesRequest = true)
        c.shared.trace := by
  refine ⟨(Pool.play (step {}) (fun c _ ch => submitsInTime (fun _ => true) c ch) start
    startedLate).config, play_reachable (submitsInTime_sound _) startedLate Reachable.start, ?_⟩
  unfold Trace.Bars
  decide +kernel

/-! ## No upload on a destroyed request -/

/-- A read or rewind of the upload on its way to its sink. -/
def Thread.unsunk (t : Thread) : Bool := t.uploads != 0

/-- The runnable calls the upload. -/
def Runnable.isUpload : Runnable → Bool
  | .upload _ => true
  | _ => false

theorem uploads_quiet
    (h : Reachable (step cfg)
      (fun c t ch => SubmitsInTime Runnable.isUpload c t ch ∧ IdleAtCheck Thread.unsunk c t ch)
      start.config c)
    (hq : .quiesced ∈ c.shared.trace) : total Thread.uploads c.threads = 0 := by
  refine quiet_reachable (fun ha => ha.2) ?_ ?_ h hq
  · intro u _ hbusy
    simpa [Thread.unsunk] using hbusy
  · rintro c t ch ts hi ⟨hsubmits, -⟩ hmem hg hafter
    refine hg.uploads ?_
    rintro op rfl
    exact hsubmits (.upload op) rfl rfl (hi.handedOver hmem hafter)

/-- **The native request outlives its uploads.** If no read or rewind is on its way
to its sink when the cleanup task reads `callback_count` as zero, none is left when
the native request, and its sink with it, is destroyed. -/
theorem uploads_before_destroy
    (h : Reachable (step cfg)
      (fun c t ch => SubmitsInTime Runnable.isUpload c t ch ∧ IdleAtCheck Thread.unsunk c t ch)
      start.config c)
    (hd : .destroy ∈ c.shared.trace) : ∀ u ∈ c.threads, u.uploads = 0 :=
  total_eq_zero.mp ((lifetimeInv_reachable h).idle uploads_le_work (uploads_quiet h) hd)

/-- The request is cancelled while a read waits for the source of the upload, which
answers after the cleanup task or before it. -/
def readsUpload (late : Bool) : Schedule :=
  starts ++ [(.outside .cronet, [.submit (.upload (.read 4))]),
    (.runnable .queued (.upload (.read 4)), go 6)] ++
  cancels ++ endsCanceled ++
  if late then
    cleansUp ++ [(.upload (.poll (.read 4)), [.source (.ready (.ok (1, true))), .go])]
  else
    [(.upload (.poll (.read 4)), [.source (.ready (.ok (1, true)))] ++ go 3)] ++ cleansUp

theorem uploads_before_destroy_readsUpload :
    .destroy ∈ (Pool.play (step {}) (fun c t ch => submitsInTime Runnable.isUpload c ch &&
      idleAtCheck Thread.unsunk c t) start (readsUpload false)).config.shared.trace ∧
    ∀ u ∈ (Pool.play (step {}) (fun c t ch => submitsInTime Runnable.isUpload c ch &&
      idleAtCheck Thread.unsunk c t) start (readsUpload false)).config.threads,
      u.uploads = 0 := by
  have hd : .destroy ∈ (Pool.play (step {}) (fun c t ch => submitsInTime Runnable.isUpload c ch &&
      idleAtCheck Thread.unsunk c t) start (readsUpload false)).config.shared.trace := by
    decide +kernel
  refine ⟨hd, @uploads_before_destroy {} _ (play_reachable ?_ (readsUpload false)
    Reachable.start) hd⟩
  intro c t ch h
  rw [Bool.and_eq_true] at h
  exact ⟨submitsInTime_sound _ c t ch h.1, idleAtCheck_sound _ c t ch h.2⟩

/-- **The native request is destroyed under an upload that is still reading.** -/
theorem upload_after_destroy :
    ∃ c, Reachable (step {}) (SubmitsInTime Runnable.isUpload) start.config c ∧
      .destroy ∈ c.shared.trace ∧ ¬ ∀ u ∈ c.threads, u.uploads = 0 := by
  refine ⟨(Pool.play (step {}) (fun c _ ch => submitsInTime Runnable.isUpload c ch) start
    (readsUpload true)).config,
    play_reachable (submitsInTime_sound _) (readsUpload true) Reachable.start, ?_⟩
  decide +kernel

end TokioCronet.Request
