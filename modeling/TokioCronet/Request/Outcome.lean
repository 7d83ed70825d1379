import TokioCronet.Request.Buffers
import TokioCronet.Request.Report

/-!
# One consistent report

What the reports of a request come to when its terminal callback has finished: the
header future is resolved, `done` is set for good, and whoever was told of an error was
told of the same one. That the callback has finished is a matter of the ledger of its
own positions, since it sets `state.terminal` first and signals last.
-/

namespace TokioCronet.Request

open Pool

variable {cfg : Settings} {s s' : Shared} {t : Thread} {ch : Choice} {ts : List Thread}

/-! ## The end of the terminal callback -/

/-- The first terminal callback, between `state.terminal` and its signal. -/
def Thread.ending : Thread → Nat
  | .terminal (.first _) => 0
  | .terminal _ => 1
  | _ => 0

/-- What one step does to the way from `state.terminal` to the signal. -/
structure Ending (s : Shared) (t : Thread) (s' : Shared) (ts : List Thread) : Prop where
  /-- The sender is used up by the signal. -/
  sender : s'.context.terminalSender = !s'.context.terminalSignal
  /-- Who is on the way to the signal signals once. -/
  balance : s'.context.state.terminal.toNat + s.context.terminalSignal.toNat + t.ending =
    s.context.state.terminal.toNat + s'.context.terminalSignal.toNat +
      (ts.map Thread.ending).sum

theorem after_ending (op : GatedOp) (e : Option Error) :
    ((op.after e).map Thread.ending).sum = 0 := by
  fun_cases GatedOp.after op e <;> rfl

theorem leave_ending (site : Site) : (site.leave.map Thread.ending).sum = 0 := by
  cases site <;> rfl

theorem callback_ending (r : Runnable) : ([r.callback].map Thread.ending).sum = 0 := by
  cases r <;> rfl

@[simp] theorem releaseArc_terminalSender (s : Shared) :
    s.releaseArc.context.terminalSender = s.context.terminalSender := by
  unfold Shared.releaseArc
  split_ifs <;> rfl

theorem report_ending (error : Option Error) :
    ([Thread.terminal (Terminal.report error)].map Thread.ending).sum = 1 := by
  cases error <;> rfl

theorem step_ending (h : step cfg s t ch = some (s', ts))
    (hsender : s.context.terminalSender = !s.context.terminalSignal)
    (hle : t.ending + s.context.terminalSignal.toNat ≤ s.context.state.terminal.toNat) :
    Ending s t s' ts := by
  -- most steps touch neither flag
  have hpass : s'.context.terminalSender = s.context.terminalSender →
      s'.context.terminalSignal = s.context.terminalSignal →
      s'.context.state.terminal = s.context.state.terminal →
      t.ending = (ts.map Thread.ending).sum → Ending s t s' ts := by
    intro hkept hsignal hterminal hending
    constructor
    · rw [hkept, hsignal, hsender]
    · rw [hsignal, hterminal, hending]
  revert h hpass
  cases t <;> simp only [step]
  case outside who =>
    fun_cases outsideStep s who ch <;> first | exact of_none | apply of_some
    all_goals
      intro hpass
      exact hpass rfl rfl rfl rfl
  case start p =>
    fun_cases startStep s p ch <;> first | exact of_none | apply of_some
    all_goals
      intro hpass
      exact hpass rfl rfl rfl rfl
  case shutdown p =>
    fun_cases shutdownStep s p ch <;> first | exact of_none | apply of_some
    all_goals
      intro hpass
      exact hpass rfl rfl rfl rfl
  case control p =>
    fun_cases controlStep s p ch <;> first | exact of_none | apply of_some
    all_goals
      intro hpass
      first
        | exact hpass rfl rfl rfl rfl
        | exact hpass rfl rfl rfl (after_ending _ _).symm
  case runnable stage r =>
    fun_cases runnableStep s stage r ch <;> first | exact of_none | apply of_some
    all_goals
      intro hpass
      first
        | exact hpass rfl rfl rfl rfl
        | exact hpass rfl rfl rfl (callback_ending r).symm
  case callback p =>
    fun_cases callbackStep cfg s p ch <;> first | exact of_none | apply of_some
    all_goals
      intro hpass
      exact hpass rfl rfl rfl rfl
  case read p =>
    fun_cases readStep s p ch <;> first | exact of_none | apply of_some
    all_goals
      intro hpass
      first
        | exact hpass rfl rfl rfl rfl
        | exact hpass rfl rfl (forget_terminal _ _) rfl
        | exact hpass rfl rfl rfl (leave_ending _).symm
        | exact hpass rfl rfl (forget_terminal _ _) (leave_ending _).symm
  case terminal p =>
    fun_cases terminalStep s p ch <;> first | exact of_none | (apply of_some; intro hpass)
    case case2 fallback hfirst =>
      refine ⟨hsender, ?_⟩
      simp [Bool.eq_false_iff.mpr hfirst, Thread.ending]
      omega
    case case6 error _ _ =>
      exact hpass rfl rfl rfl (report_ending error).symm
    case case7 error _ _ =>
      exact hpass rfl rfl rfl (report_ending error).symm
    case case9 hkept =>
      have hunsent : s.context.terminalSignal = false := by
        rw [hkept] at hsender
        simpa using hsender.symm
      refine ⟨rfl, ?_⟩
      rw [hunsent]
      simp [Thread.ending]
    case case10 hgone =>
      -- the signal is sent once, and this callback has not sent it
      have hsent : s.context.terminalSignal = true := by
        rw [Bool.eq_false_iff.mpr hgone] at hsender
        simpa using hsender.symm
      rw [hsent] at hle
      have hle' := Bool.toNat_le s.context.state.terminal
      simp only [Thread.ending, Bool.toNat_true] at hle
      omega
    all_goals exact hpass rfl rfl rfl rfl
  case task p =>
    fun_cases taskStep cfg s p ch <;> first | exact of_none | apply of_some
    all_goals
      intro hpass
      first
        | exact hpass rfl rfl rfl rfl
        | exact hpass (by simp) (by simp) (by simp) rfl
  case upload p =>
    fun_cases uploadStep cfg s p ch <;> first | exact of_none | apply of_some
    all_goals
      intro hpass
      exact hpass rfl rfl rfl rfl
  case cleanup p =>
    fun_cases cleanupStep s p ch <;> first | exact of_none | apply of_some
    all_goals
      intro hpass
      first
        | exact hpass rfl rfl rfl rfl
        | exact hpass (by simp) (by simp) (by simp) rfl
  case execute p =>
    fun_cases executeStep s p ch <;> first | exact of_none | apply of_some
    all_goals
      intro hpass
      exact hpass rfl rfl rfl rfl

/-! ## Runs -/

variable {allowed : Policy Shared Thread Choice} {c c' : Config Shared Thread}

/-- The first terminal callback signals the end. -/
structure EndingInv (c : Config Shared Thread) : Prop where
  /-- The sender is used up by the signal. -/
  sender : c.shared.context.terminalSender = !c.shared.context.terminalSignal
  /-- One thread is on the way to the signal. -/
  balance : c.shared.context.state.terminal.toNat =
    c.shared.context.terminalSignal.toNat + total Thread.ending c.threads

theorem endingInv_init : EndingInv start.config where
  sender := rfl
  balance := rfl

theorem endingInv_step (hi : EndingInv c) (hs : Step (step cfg) allowed c c') :
    EndingInv c' := by
  obtain ⟨_, hn⟩ := hs
  rename_i s s' t ts rest ch _
  have hbalance : s.context.state.terminal.toNat =
    s.context.terminalSignal.toNat + total Thread.ending (t ::ₘ rest) := hi.balance
  rw [total_cons] at hbalance
  have hending := step_ending hn hi.sender (by omega)
  have hmoved := hending.balance
  refine ⟨hending.sender, ?_⟩
  rw [total_add, total_coe]
  simp only
  omega

theorem endingInv_reachable (h : Reachable (step cfg) allowed start.config c) :
    EndingInv c :=
  h.invariant endingInv_init (fun _ hi hs => endingInv_step hi hs)

/-- The terminal callback has run to its end. -/
def TerminalFinished (c : Config Shared Thread) : Prop :=
  c.shared.context.state.terminal = true ∧ ∀ t ∈ c.threads, t.ending = 0

instance : Decidable (TerminalFinished c) :=
  inferInstanceAs (Decidable (_ ∧ _))

theorem signal_of_finished (hi : EndingInv c) (hfinished : TerminalFinished c) :
    c.shared.context.terminalSignal = true := by
  have hbalance := hi.balance
  rw [hfinished.1, total_eq_zero.mpr hfinished.2] at hbalance
  cases hsignal : c.shared.context.terminalSignal with
  | true => rfl
  | false =>
    rw [hsignal] at hbalance
    exact absurd hbalance (by decide)

/-- `done` is set for good. -/
theorem done_kept (h : Reachable (step cfg) allowed c c') (hdone : c.shared.control.done = true) :
    c'.shared.control.done = true := by
  refine h.invariant (P := fun c => c.shared.control.done = true) hdone ?_
  intro c c' _ hdone hs
  obtain ⟨_, hn⟩ := hs
  exact (step_frame hn).done hdone

/-! ## What is reported -/

/-- The terminal callback reports `error`: at one point it consumed the first error
recorded before it, or for want of one took what it was called with itself. -/
def Reports (tr : List Event) (error : Option Error) : Prop :=
  ∃ before fallback after, tr = before ++ .consumed fallback error :: after ∧
    error = (firstRecorded before).or fallback ∧ OwnError before fallback

theorem Told.reports (hs : Told s) {fallback error : Option Error}
    (h : .consumed fallback error ∈ s.trace) : Reports s.trace error := by
  obtain ⟨l, r, heq⟩ := List.append_of_mem h
  obtain ⟨hfirst, hown⟩ := hs.consumed l _ r heq fallback error rfl
  exact ⟨l, fallback, r, heq, hfirst, hown⟩

/-- What the header future and the body are told. -/
structure ReportedOnce (c : Config Shared Thread) : Prop where
  /-- The sender of the header future is taken at most once. -/
  atMostOnce : c.shared.trace.countP Event.isHeaders ≤ 1
  /-- They are told of one outcome when the terminal callback is over. -/
  exactlyOnce : TerminalFinished c → c.shared.trace.countP Event.isHeaders = 1
  /-- A future that is still awaited is resolved by whoever took the sender. -/
  resolved : TerminalFinished c → c.shared.context.headersReceiver = true →
    c.shared.context.headers.isSome = true
  /-- The future has the response or an error. -/
  future : ∀ r, c.shared.context.headers = some r →
    (∃ info, r = .ok info ∧ .responseHeaders info ∈ c.shared.trace) ∨
    ∃ e, r = .error e ∧ .terminalHeaders e ∈ c.shared.trace
  /-- It has the response just if `on_response_started` sent it. -/
  ok : c.shared.context.headersReceiver = true →
    ((∃ info, c.shared.context.headers = some (.ok info)) ↔
      ∃ info, .responseHeaders info ∈ c.shared.trace)
  /-- `done` is set once. -/
  done : c.shared.trace.countP Event.isDone = c.shared.control.done.toNat
  /-- It is set when the terminal callback is over. -/
  doneOnce : TerminalFinished c → c.shared.control.done = true
  /-- The body is told of one error at most. -/
  oneBodyError : c.shared.trace.countP Event.isBodyError ≤ 1
  /-- It is told of the error that the request reports. -/
  bodyError : ∀ e, .bodyError e ∈ c.shared.trace → Reports c.shared.trace (some e)
  /-- `on_succeeded` brings no error, and tells a header future that is still open so. -/
  headersError : ∀ e, .terminalHeaders e ∈ c.shared.trace →
    ∃ error, Reports c.shared.trace error ∧ e = error.getD .callbackChannelClosed
  /-- Both are told the same. -/
  agree : ∀ e e', .terminalHeaders e ∈ c.shared.trace → .bodyError e' ∈ c.shared.trace → e = e'

theorem done_count (hi : ReportInv c) :
    c.shared.trace.countP Event.isDone = c.shared.control.done.toNat := by
  have hone : c.shared.trace.countP Event.isDone ≤ 1 := by
    have hbalance := hi.done
    omega
  cases hdone : c.shared.control.done with
  | true =>
    have hpos : 0 < c.shared.trace.countP Event.isDone :=
      List.countP_pos_iff.mpr ⟨_, hi.told.done.mpr hdone, rfl⟩
    simp only [Bool.toNat_true]
    omega
  | false =>
    rw [Bool.toNat_false, List.countP_eq_zero]
    intro e he hisDone
    cases e with
    | done =>
      rw [hi.told.done.mp he] at hdone
      contradiction
    | _ => contradiction

theorem done_of_finished (hi : ReportInv c) (hfinished : TerminalFinished c) :
    c.shared.control.done = true := by
  have hzero : total Thread.toDone c.threads = 0 := by
    refine total_eq_zero.mpr ?_
    intro t ht
    have hending := hfinished.2 t ht
    cases t with
    | terminal p => cases p <;> first | rfl | contradiction
    | _ => rfl
  have hcount := done_count hi
  have hbalance := hi.done
  rw [hfinished.1, hzero, hcount] at hbalance
  cases hdone : c.shared.control.done with
  | true => rfl
  | false =>
    rw [hdone] at hbalance
    exact absurd hbalance (by decide)

/-- A sender that was taken by `on_response_started` was not taken by `terminal`. -/
theorem ok_iff_response (hi : ReportInv c) (hreceiver : c.shared.context.headersReceiver = true) :
    (∃ info, c.shared.context.headers = some (.ok info)) ↔
      ∃ info, .responseHeaders info ∈ c.shared.trace := by
  constructor
  · rintro ⟨info, hok⟩
    rcases hi.told.future _ hok with ⟨info', -, hmem⟩ | ⟨e, herror, -⟩
    · exact ⟨info', hmem⟩
    · cases herror
  · rintro ⟨info, hmem⟩
    have hcount := hi.headers
    have hpos : 0 < c.shared.trace.countP Event.isHeaders :=
      List.countP_pos_iff.mpr ⟨_, hmem, rfl⟩
    have hsent : c.shared.context.headersSender = false := by
      cases hsender : c.shared.context.headersSender with
      | false => rfl
      | true =>
        rw [hsender, Bool.toNat_true] at hcount
        omega
    obtain ⟨r, hr⟩ := Option.isSome_iff_exists.mp (hi.told.resolved hsent hreceiver)
    rcases hi.told.future r hr with ⟨info', rfl, -⟩ | ⟨e, -, hterminal⟩
    · exact ⟨info', hr⟩
    · have heq := Trace.eq_of_countP_le_one (p := Event.isHeaders) (by omega) hmem hterminal
        rfl rfl
      cases heq

theorem agree_of_consumed (hi : ReportInv c) {e e' : Error}
    (hheaders : .terminalHeaders e ∈ c.shared.trace) (hbody : .bodyError e' ∈ c.shared.trace) :
    e = e' := by
  obtain ⟨fallback, error, hconsumed, rfl⟩ := hi.told.terminalHeaders e hheaders
  obtain ⟨fallback', hconsumed'⟩ := hi.told.bodyError e' hbody
  have hone : c.shared.trace.countP Event.isConsumed ≤ 1 := by
    have hbudget := hi.consumed
    omega
  have heq := Trace.eq_of_countP_le_one hone hconsumed hconsumed' rfl rfl
  cases heq
  rfl

theorem reportedOnce (hi : ReportInv c) (he : EndingInv c) : ReportedOnce c where
  atMostOnce := by
    have hcount := hi.headers
    omega
  exactlyOnce := by
    intro hfinished
    have hcount := hi.headers
    rw [hi.told.signal (signal_of_finished he hfinished)] at hcount
    simpa using hcount
  resolved := fun hfinished hreceiver =>
    hi.told.resolved (hi.told.signal (signal_of_finished he hfinished)) hreceiver
  future := hi.told.future
  ok := ok_iff_response hi
  done := done_count hi
  doneOnce := done_of_finished hi
  oneBodyError := by
    have hbudget := hi.bodyError
    omega
  bodyError := by
    intro e hmem
    obtain ⟨fallback, hconsumed⟩ := hi.told.bodyError e hmem
    exact hi.told.reports hconsumed
  headersError := by
    intro e hmem
    obtain ⟨fallback, error, hconsumed, heq⟩ := hi.told.terminalHeaders e hmem
    exact ⟨error, hi.told.reports hconsumed, heq⟩
  agree := fun e e' => agree_of_consumed hi

/-- **Every run reports once, and says one thing.** Where Cronet succeeds only after the
last read, an error that the header future is told of is always the one consumed. -/
theorem request_reported_once (h : Reachable (step cfg) allowed start.config c) :
    ReportedOnce c ∧
    (∀ c', Reachable (step cfg) allowed c c' → c.shared.control.done = true →
      c'.shared.control.done = true) ∧
    ((∀ c t ch, allowed c t ch → ReadContract c t ch) →
      ∀ e, .terminalHeaders e ∈ c.shared.trace → Reports c.shared.trace (some e)) := by
  have hi := reportInv_reachable h
  refine ⟨reportedOnce hi (endingInv_reachable h), fun c' hc' => done_kept hc', ?_⟩
  intro hcontract e hmem
  have hheaders := headersInv_reachable (h.mono hcontract)
  obtain ⟨fallback, hconsumed⟩ := hheaders.error e hmem
  exact hi.told.reports hconsumed

/-- `SucceedsInTurn` as a test. -/
def succeedsInTurn (c : Listed Shared Thread) : Choice → Bool
  | .submit .succeeded => c.shared.native.reading.isSome
  | _ => true

/-- `ReadContract` as a test. -/
def readContract (c : Listed Shared Thread) (_ : Thread) (ch : Choice) : Bool :=
  answersReads c ch && succeedsInTurn c ch

theorem readContract_sound (c : Listed Shared Thread) (t : Thread) (ch : Choice)
    (h : readContract c t ch = true) : ReadContract c.config t ch := by
  rw [readContract, Bool.and_eq_true] at h
  obtain ⟨hreads, hsucceeds⟩ := h
  refine ⟨answersReads_sound c t ch hreads, ?_⟩
  rintro rfl
  exact hsucceeds

/-- The policy refuses a redirect and records that; then an upload fails too, and the
canceled callback runs to its end. -/
def refusesRedirect : Schedule :=
  starts ++ enters (.redirectReceived okInfo "https://example.test/next") ++
  [(.runnable .entered (.redirectReceived okInfo "https://example.test/next"), go 6)] ++
  enters (.upload .rewind) ++
  [(.runnable .entered (.upload .rewind),
    go 3 ++ [.source (.ready (.error (.upload "upload body ended early")))] ++ go 4)] ++
  endsCanceled ++ [(.task (.sendError (.redirect "https://example.test/next" okInfo)), go 2)]

theorem request_reported_once_refusesRedirect :
    TerminalFinished (Pool.play (step { redirectPolicy := .cancel }) readContract start
      refusesRedirect).config ∧
    ReportedOnce (Pool.play (step { redirectPolicy := .cancel }) readContract start
      refusesRedirect).config ∧
    (Pool.play (step { redirectPolicy := .cancel }) readContract start
      refusesRedirect).config.shared.context.headers =
        some (.error (.redirect "https://example.test/next" okInfo)) ∧
    Reports (Pool.play (step { redirectPolicy := .cancel }) readContract start
      refusesRedirect).config.shared.trace
        (some (.redirect "https://example.test/next" okInfo)) := by
  have hreports := request_reported_once
    (c := (Pool.play (step { redirectPolicy := .cancel }) readContract start
      refusesRedirect).config)
    (play_reachable readContract_sound refusesRedirect Reachable.start)
  refine ⟨by decide +kernel, hreports.1, by decide +kernel, ?_⟩
  exact hreports.2.2 (fun _ _ _ h => h) _ (by decide +kernel)

end TokioCronet.Request
