import TokioCronet.Request.Report
import TokioCronet.Request.Sources
import TokioCronet.Request.Uploads

/-!
# The cause of a failed upload

A request with an upload can fail for two reasons that nobody asked for: the network reports
`on_failed`, or the source of the upload fails. Both go through the one error slot, and so
does the error of an upload task that `upload_close` cuts off. This module says which of them
the header future and the body are told of when nobody has cancelled the request.
-/

namespace TokioCronet.Request

open Pool

variable {cfg : Settings} {s s' : Shared} {t u : Thread} {ch : Choice} {ts : List Thread}
  {c : Config Shared Thread}

/-- An error that an upload has by itself. -/
def OfUpload (x : Error) : Prop :=
  (∃ message, x = .upload message) ∨ ∃ kind, x = .allocationFailed kind

/-- The way into a cancellation: `RequestControl::cancel`, `fail_then_cancel` and
`fail_from_task`. -/
def Thread.cancels : Thread → Bool
  | .control (.store _) | .read (.record _ _) | .task (.record _ _) => true
  | _ => false

/-- Nobody cancels: no call of `cancel`, no drop, no refusal, no shutdown, and Cronet does not
say that somebody did. -/
def Uncancelled : Policy Shared Thread Choice := fun _ t ch =>
  t.cancels = false ∧ ch ≠ .drop ∧ ch ≠ .shutdown ∧ ch ≠ .submit .canceled

/-- An upload task that polls the source gets an error only if there is a source that answers
so. -/
def SourceContract : Policy Shared Thread Choice := fun _ t ch =>
  ∀ op x, t = .upload (.poll op) → ch = .source (.ready (.error x)) →
    ∃ (R : Type) (io : Io R) (usizeMax : Nat) (source : UploadSource R),
      source.answer io usizeMax op = .error x

/-- Every source reports its errors as `Error::Upload`. -/
theorem SourceContract.upload (h : SourceContract c t ch)
    {op : UploadOp} {x : Error} (ht : t = .upload (.poll op))
    (hch : ch = .source (.ready (.error x))) : ∃ message, x = .upload message := by
  obtain ⟨R, io, usizeMax, source, hanswer⟩ := h op x ht hch
  exact answer_error hanswer

/-- A source may answer with every such error. -/
theorem sourceContract_upload (c : Config Shared Thread) {message : String}
    (hch : ch = .source (.ready (.error (.upload message)))) : SourceContract c t ch := by
  intro op x _ hx
  cases hch.symm.trans hx
  obtain ⟨io, usizeMax, source, hanswer⟩ := answers_error op message
  exact ⟨Unit, io, usizeMax, source, hanswer⟩

/-- The terminal callback has taken the error of the request. -/
def Taken (tr : List Event) : Prop := ∃ fallback error, .consumed fallback error ∈ tr

/-- A task that `upload_close` cut off finds an error in the slot, or is too late for it. -/
def CutOffLate : Policy Shared Thread Choice := fun c t _ =>
  ∀ op, t = .upload (.locked op (.error .canceled)) →
    c.shared.context.requestError ≠ none ∨ Taken c.shared.trace

/-- The error that an upload task is about to record. -/
def Thread.failure : Thread → Option Error
  | .upload (.lock _ (.error x)) | .upload (.locked _ (.error x)) => some x
  | _ => none

theorem failure_none (h : (ts.all fun u => u.failure.isNone) = true) :
    ∀ u ∈ ts, ∀ x, u.failure = some x → x = .canceled ∨ OfUpload x := by
  intro u hu x hx
  have hnone := List.all_eq_true.mp h u hu
  rw [hx] at hnone
  cases hnone

theorem after_failure (op : GatedOp) (e : Option Error) :
    ∀ u ∈ op.after e, ∀ x, u.failure = some x → x = .canceled ∨ OfUpload x := by
  fun_cases GatedOp.after op e <;> exact failure_none rfl

theorem leave_failure (site : Site) :
    ∀ u ∈ site.leave, ∀ x, u.failure = some x → x = .canceled ∨ OfUpload x := by
  cases site <;> exact failure_none rfl

theorem uploadStep_failure {p : Upload} (h : uploadStep cfg s p ch = some (s', ts))
    (hsource : ∀ {op x}, p = .poll op → ch = .source (.ready (.error x)) →
      ∃ message, x = .upload message)
    (ht : ∀ x, (Thread.upload p).failure = some x → x = .canceled ∨ OfUpload x) :
    ∀ u ∈ ts, ∀ x, u.failure = some x → x = .canceled ∨ OfUpload x := by
  revert h ht hsource
  fun_cases uploadStep cfg s p ch <;> first | exact of_none | (apply of_some; intro hsource ht)
  case case5 | case15 =>
    refine List.forall_mem_singleton.mpr fun x hx => ?_
    cases hx
    exact .inr (.inr ⟨_, rfl⟩)
  case case6 =>
    refine List.forall_mem_singleton.mpr fun x hx => ?_
    cases hx
    exact .inl rfl
  case case9 op result =>
    refine List.forall_mem_singleton.mpr fun x hx => ?_
    cases result with
    | ok value => cases hx
    | error y =>
      cases hx
      exact .inr (.inl (hsource rfl rfl))
  case case12 op result _ =>
    refine List.forall_mem_singleton.mpr fun x hx => ht x ?_
    cases result <;> exact hx
  all_goals exact failure_none rfl

/-- The error of an upload task is the source's own, or says that it was cut off. -/
theorem step_failure (h : step cfg s t ch = some (s', ts)) (hsource : SourceContract c t ch)
    (ht : ∀ x, t.failure = some x → x = .canceled ∨ OfUpload x) :
    ∀ u ∈ ts, ∀ x, u.failure = some x → x = .canceled ∨ OfUpload x := by
  revert h
  cases t <;> simp only [step]
  case outside who =>
    fun_cases outsideStep s who ch <;> first | exact of_none | apply of_some
    all_goals exact failure_none rfl
  case start p =>
    fun_cases startStep s p ch <;> first | exact of_none | (apply of_some; exact failure_none rfl)
  case shutdown p =>
    fun_cases shutdownStep s p ch <;> first | exact of_none | apply of_some
    all_goals exact failure_none rfl
  case control p =>
    fun_cases controlStep s p ch <;> first | exact of_none | apply of_some
    all_goals first
      | exact failure_none rfl
      | exact after_failure _ _
  case runnable stage r =>
    fun_cases runnableStep s stage r ch <;> first | exact of_none | apply of_some
    all_goals first
      | exact failure_none rfl
      | (cases r <;> exact failure_none rfl)
  case callback p =>
    fun_cases callbackStep cfg s p ch <;> first | exact of_none | apply of_some
    all_goals exact failure_none rfl
  case read p =>
    fun_cases readStep s p ch <;> first | exact of_none | apply of_some
    all_goals first
      | exact failure_none rfl
      | exact leave_failure _
  case terminal p =>
    fun_cases terminalStep s p ch <;> first | exact of_none | apply of_some
    all_goals exact failure_none rfl
  case task p =>
    fun_cases taskStep cfg s p ch <;> first | exact of_none | apply of_some
    all_goals exact failure_none rfl
  case upload p =>
    exact fun h => uploadStep_failure h (fun hp => hsource.upload (congrArg _ hp)) ht
  case cleanup p =>
    fun_cases cleanupStep s p ch <;> first | exact of_none | apply of_some
    all_goals exact failure_none rfl
  case execute p =>
    fun_cases executeStep s p ch <;> first | exact of_none | apply of_some
    all_goals exact failure_none rfl

/-! ## The error slot -/

variable {allowed : Policy Shared Thread Choice} {c' : Config Shared Thread}

/-- The conditions under which a request keeps the cause of its failure. -/
def KeepsCause : Policy Shared Thread Choice := fun c t ch =>
  Uncancelled c t ch ∧ SourceContract c t ch ∧ CutOffLate c t ch

/-- What the error slot holds until the terminal callback takes it. -/
structure CauseInv (c : Config Shared Thread) : Prop where
  /-- A task fails with an error of the upload, or because it was cut off. -/
  failures : ∀ t ∈ c.threads, ∀ x, t.failure = some x → x = .canceled ∨ OfUpload x
  /-- Before the terminal callback the slot has an error of the upload. -/
  slot : ¬ Taken c.shared.trace → ∀ x, c.shared.context.requestError = some x → OfUpload x
  /-- The terminal callback takes its own error, or one of the upload. -/
  taken : ∀ fallback error, .consumed fallback error ∈ c.shared.trace →
    error = fallback ∨ ∃ x, error = some x ∧ OfUpload x

theorem causeInv_init : CauseInv start.config where
  failures := by
    intro t ht
    exact @failure_none start.threads rfl t (Multiset.mem_coe.mp ht)
  slot := by
    intro _ x hx
    cases hx
  taken := by
    intro fallback error hmem
    exact absurd hmem List.not_mem_nil

/-- What a step records, if nobody cancels. -/
theorem recorded_failure {x : Error} (h : step cfg s t ch = some (s', ts))
    (hnot : t.cancels = false) (htrace : s'.trace = s.trace ++ [.recorded x]) :
    ∃ op, t = .upload (.locked op (.error x)) := by
  rcases step_event h with hsame | ⟨e, hone, hcause⟩
  · rw [htrace] at hsame
    exact absurd hsame (List.append_right_eq_self.not.mpr (List.cons_ne_nil _ _))
  · obtain rfl : .recorded x = e :=
      List.singleton_inj.mp (List.append_cancel_left (htrace.symm.trans hone))
    rcases hcause with ⟨site, rfl⟩ | ⟨sender, rfl⟩ | hupload
    · cases hnot
    · cases hnot
    · exact hupload

theorem causeInv_step (hr : ReportInv c) (hi : CauseInv c)
    (hs : Step (step cfg) KeepsCause c c') : CauseInv c' := by
  obtain ⟨⟨⟨hnot, -⟩, hsource, hlate⟩, hn⟩ := hs
  rename_i s s' t ts rest ch
  have hmem : t ∈ t ::ₘ rest := Multiset.mem_cons_self t rest
  have htrace : s.trace ⊆ s'.trace := (step_frame hn).trace.subset
  have huntaken : ¬ Taken s'.trace → ¬ Taken s.trace := by
    rintro hnone ⟨fallback, error, hconsumed⟩
    exact hnone ⟨fallback, error, htrace hconsumed⟩
  refine ⟨?_, ?_, ?_⟩
  · exact forall_step hi.failures (fun ht => step_failure hn hsource ht) (fun u _ hu => hu)
  · intro hnone x hx
    have hslot : ∀ x, s.context.requestError = some x → OfUpload x :=
      hi.slot (huntaken hnone)
    cases step_telling hn with
    | quiet _ hrequest => exact hslot x (hrequest ▸ hx)
    | recorded y hevent hrequest =>
      rw [show s'.context.requestError = _ from hrequest] at hx
      rcases Option.or_eq_some_iff.mp hx with hold | ⟨hempty, hy⟩
      · exact hslot x hold
      · cases hy
        obtain ⟨op, rfl⟩ := recorded_failure hn hnot hevent
        rcases hi.failures _ hmem x rfl with rfl | hupload
        · -- a task that was cut off has come too late
          rcases hlate op rfl with hfull | htaken
          · exact absurd hempty hfull
          · exact absurd htaken (huntaken hnone)
        · exact hupload
    | consumed fallback _ hevent =>
      refine absurd ⟨fallback, s.context.requestError.or fallback, ?_⟩ hnone
      rw [show s'.trace = _ from hevent]
      exact List.mem_append_right _ (List.mem_singleton_self _)
    | response _ _ hrequest => exact hslot x (hrequest ▸ hx)
    | terminal _ _ _ hrequest => exact hslot x (hrequest ▸ hx)
  · intro fallback error hconsumed
    by_cases hold : .consumed fallback error ∈ s.trace
    · exact hi.taken fallback error hold
    · cases step_telling hn with
      | quiet hevent => exact absurd (mem_of_quiet rfl hevent hconsumed) hold
      | consumed fallback' hthread hevent =>
        subst hthread
        have hslot := hi.slot fun ⟨_, _, hbefore⟩ => hr.untaken _ _ hbefore
        have hnew := hconsumed
        rw [show s'.trace = _ from hevent, List.mem_append, List.mem_singleton] at hnew
        rcases hnew with hnew | hnew
        · exact absurd hnew hold
        · cases hnew
          cases hrequest : s.context.requestError with
          | none => exact .inl rfl
          | some x => exact .inr ⟨x, rfl, hslot x hrequest⟩
      | recorded _ hevent | response _ hevent | terminal _ _ hevent =>
        have hnew : .consumed fallback error ∈ s'.trace := hconsumed
        exact (hold (mem_of_append hevent nofun hnew)).elim

theorem causeInv_reachable (h : Reachable (step cfg) KeepsCause start.config c) : CauseInv c := by
  induction h with
  | refl => exact causeInv_init
  | tail hr hs ih => exact causeInv_step (reportInv_reachable hr) ih hs

/-- What the caller of a request can be told of its failure. -/
def Shared.Tells (s : Shared) (x : Error) : Prop :=
  s.context.headers = some (.error x) ∨ .terminalHeaders x ∈ s.trace ∨ .bodyError x ∈ s.trace

/-- **A request that nobody cancels fails with the cause of its failure**, if every upload task
that `upload_close` cuts off is late. -/
theorem failure_keeps_cause {e : NetworkError} {error : Option Error} {x : Error}
    (h : Reachable (step cfg) KeepsCause start.config c)
    (hfailed : .consumed (some (.network e)) error ∈ c.shared.trace)
    (hx : c.shared.Tells x) : x = .network e ∨ OfUpload x := by
  have hreport := reportInv_reachable h
  have htold : ∃ fallback error', .consumed fallback error' ∈ c.shared.trace ∧
      x = error'.getD .callbackChannelClosed := by
    rcases hx with hfuture | hheaders | hbody
    · rcases hreport.told.future _ hfuture with ⟨info, hok, -⟩ | ⟨y, hy, hheaders⟩
      · cases hok
      · cases hy
        exact hreport.told.terminalHeaders x hheaders
    · exact hreport.told.terminalHeaders x hheaders
    · obtain ⟨fallback, hconsumed⟩ := hreport.told.bodyError x hbody
      exact ⟨fallback, some x, hconsumed, rfl⟩
  obtain ⟨fallback, error', hconsumed, rfl⟩ := htold
  have hone : c.shared.trace.countP Event.isConsumed ≤ 1 := by
    have hbudget := hreport.consumed
    omega
  cases Trace.eq_of_countP_le_one hone hfailed hconsumed rfl rfl
  rcases (causeInv_reachable h).taken _ _ hfailed with rfl | ⟨y, rfl, hupload⟩
  · exact .inl rfl
  · exact .inr hupload

/-- `KeepsCause` as a test. -/
def keepsCause (c : Listed Shared Thread) (t : Thread) (ch : Choice) : Bool :=
  (!t.cancels && ch != .drop && ch != .shutdown && ch != .submit .canceled) &&
  (match ch with
    | .source (.ready (.error (.upload _))) => true
    | .source (.ready (.error _)) => false
    | _ => true) &&
  match t with
  | .upload (.locked _ (.error .canceled)) =>
    c.shared.context.requestError.isSome || c.shared.trace.any Event.isConsumed
  | _ => true

theorem keepsCause_sound (c : Listed Shared Thread) (t : Thread) (ch : Choice)
    (h : keepsCause c t ch = true) : KeepsCause c.config t ch := by
  unfold keepsCause at h
  rw [Bool.and_eq_true, Bool.and_eq_true] at h
  obtain ⟨⟨hnot, hsource⟩, hlate⟩ := h
  refine ⟨by simpa [Uncancelled, and_assoc] using hnot, ?_, ?_⟩
  · rintro op x rfl rfl
    cases x with
    | upload message => exact sourceContract_upload c.config rfl op _ rfl rfl
    | _ => cases hsource
  · rintro op rfl
    rcases Bool.or_eq_true_iff.mp hlate with hfull | htaken
    · exact .inl (Option.isSome_iff_ne_none.mp hfull)
    · obtain ⟨e, hmem, he⟩ := List.any_eq_true.mp htaken
      cases e with
      | consumed fallback error => exact .inr ⟨fallback, error, hmem⟩
      | _ => cases he

/-- The error of a connection that is reset. -/
def resetError : NetworkError where
  code := .connectionReset
  message := "net::ERR_CONNECTION_RESET"
  internalErrorCode := -101
  immediatelyRetryable := false
  quicDetailedErrorCode := 0

/-- The connection is reset while a read of the upload is outstanding: Cronet closes the
upload and fails the request. The task that is cut off comes before the callback or after. -/
def resets (late : Bool) : Schedule :=
  starts ++ [(.outside .cronet, [.submit (.upload (.read 4))]),
    (.runnable .queued (.upload (.read 4)), go 6)] ++
  enters .uploadClose ++ [(.runnable .entered .uploadClose, go 2)] ++
  if late then
    enters (.failed resetError) ++ [(.runnable .entered (.failed resetError), go 6)] ++
      [(.upload (.poll (.read 4)), .source .pending :: go 5)]
  else
    [(.upload (.poll (.read 4)), .source .pending :: go 5)] ++
      enters (.failed resetError) ++ [(.runnable .entered (.failed resetError), go 6)]

/-- The task is late. -/
theorem failure_keeps_cause_resets :
    let c := (Pool.play (step {}) keepsCause start (resets true)).config
    c.shared.Tells (.network resetError) ∧ ∀ x, c.shared.Tells x →
      x = .network resetError ∨ OfUpload x := by
  have hfailed : .consumed (some (.network resetError)) (some (.network resetError)) ∈
      (Pool.play (step {}) keepsCause start (resets true)).config.shared.trace := by
    decide +kernel
  refine ⟨.inl (by decide +kernel), fun x hx => ?_⟩
  exact @failure_keeps_cause {} _ _ _ x (play_reachable keepsCause_sound (resets true)
    Reachable.start) hfailed hx

/-- The conditions but the one on tasks that are cut off, as a test. -/
def uncancelled (_ : Listed Shared Thread) (t : Thread) (ch : Choice) : Bool :=
  !t.cancels && ch != .drop && ch != .shutdown && ch != .submit .canceled

/-- **The connection is reset and the caller is told that the request was cancelled.** -/
theorem failure_reported_as_cancel :
    let c := (Pool.play (step {}) uncancelled start (resets false)).config
    Reachable (step {}) Uncancelled start.config c ∧
      (∃ error, .consumed (some (.network resetError)) error ∈ c.shared.trace) ∧
      c.shared.Tells .canceled := by
  refine ⟨play_reachable (fun c t ch h => ?_) (resets false) Reachable.start,
    ⟨some .canceled, by decide +kernel⟩, .inl (by decide +kernel)⟩
  simpa [Uncancelled, uncancelled, and_assoc] using h

end TokioCronet.Request
