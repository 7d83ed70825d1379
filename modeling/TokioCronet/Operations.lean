import TokioCronet.Bidirectional.Startup
import TokioCronet.Request.Destruction
import TokioCronet.Request.Startup

/-!
# Operations

What a request and a bidirectional stream have in common: a native object that is used
until the cleanup task destroys it, and that a shutdown of the engine cancels, however far its
start has come.
-/

namespace TokioCronet

open Pool

/-! ## The native object -/

/-- **No native function is called on a destroyed object.** A request is used before it is
destroyed, and destroyed at most once, if no callback stands between its entry and its lease
when the cleanup task reads `callback_count` as zero; a stream in every run. -/
theorem native_use_before_destroy (request : Request.Settings)
    (stream : Bidirectional.Settings)
    (allowed : Policy Bidirectional.Shared Bidirectional.Thread Bidirectional.Choice) :
    (∀ c : Config Request.Shared Request.Thread,
      Reachable (Request.step request)
        (fun c t ch =>
          Request.BeginsInTime c t ch ∧ Request.IdleAtCheck Request.Thread.unleased c t ch)
        Request.start.config c →
      Trace.Bars (· = .destroy) (·.usesRequest = true) c.shared.trace ∧
        c.shared.trace.count .destroy ≤ 1) ∧
    (∀ c : Config Bidirectional.Shared Bidirectional.Thread,
      Reachable (Bidirectional.step stream) allowed Bidirectional.start.config c →
      Trace.Bars (· = .destroy) (·.usesStream = true) c.shared.trace ∧
        c.shared.trace.count .destroy ≤ 1) := by
  refine ⟨fun c h => ?_, fun c h => ?_⟩
  · exact Request.request_use_before_destroy h
  · exact Bidirectional.stream_use_before_destroy h

/-- The policy of the first half as a test. -/
def Request.leasesInTime (c : Listed Shared Thread) (t : Thread) (ch : Choice) : Bool :=
  beginsInTime c t ch && idleAtCheck Thread.unleased c t

/-- A stream is cancelled once it is ready, and cleaned up. -/
def Bidirectional.endsStream : Schedule :=
  opens ++ [(.outside .app, [.cancel]), (.control (.store .app), go 8)] ++ cancels ++
    [(.terminal .signal, go 3), (.cleanup .signal, go 7)]

theorem native_use_before_destroy_cancelled :
    (let c := Pool.play (Request.step {}) Request.leasesInTime Request.start Request.leasedInTime
     (.destroy ∈ c.shared.trace ∧ .cancel ∈ c.shared.trace) ∧
       Trace.Bars (· = .destroy) (·.usesRequest = true) c.config.shared.trace) ∧
    (let c := Pool.play (Bidirectional.step {}) Bidirectional.unchecked Bidirectional.start
        Bidirectional.endsStream
     (.destroy ∈ c.shared.trace ∧ .cancel ∈ c.shared.trace) ∧
       Trace.Bars (· = .destroy) (·.usesStream = true) c.config.shared.trace) := by
  refine ⟨⟨by decide +kernel, ((native_use_before_destroy {} {} fun _ _ _ => True).1 _ ?_).1⟩,
    ⟨by decide +kernel, ((native_use_before_destroy {} {} fun _ _ _ => True).2 _ ?_).1⟩⟩
  · refine play_reachable ?_ Request.leasedInTime Reachable.start
    intro c t ch h
    rw [Request.leasesInTime, Bool.and_eq_true] at h
    exact ⟨Request.beginsInTime_sound c t ch h.1, Request.idleAtCheck_sound _ c t ch h.2⟩
  · exact play_reachable (fun _ _ _ _ => trivial) Bidirectional.endsStream Reachable.start

/-! ## The start against a shutdown -/

/-- How an operation has ended its start once a shutdown is done with its cancellations: it was
refused and nothing native was started; or the native start succeeded, and the operation is done
or was cancelled after that; or it failed otherwise, and the native start did not succeed. -/
def Met (r : Result Unit) (start started answered : Prop) : Prop :=
  r = .error .engineShutdown ∧ ¬ start ∨ started ∧ answered ∨
    ∃ e, r = .error e ∧ e ≠ .engineShutdown ∧ ¬ started

/-- **A shutdown's cancellation is never lost.** The second half holds as well while `open`
waits for the stream to be ready, and when its future is dropped there. -/
theorem shutdown_cancels_operation :
    (∀ (cfg : Request.Settings)
      (allowed : Policy Request.Shared Request.Thread Request.Choice)
      (c : Config Request.Shared Request.Thread),
      Reachable (Request.step cfg) allowed Request.start.config c →
      .shutdown .done ∈ c.threads →
      ∀ r, .start (.returned r) ∈ c.threads →
        Met r (.start ∈ c.shared.trace) (.started ∈ c.shared.trace)
          (Request.Answered c.shared.control.done c.shared.trace)) ∧
    (∀ (cfg : Bidirectional.Settings)
      (allowed : Policy Bidirectional.Shared Bidirectional.Thread Bidirectional.Choice)
      (c : Config Bidirectional.Shared Bidirectional.Thread),
      Reachable (Bidirectional.step cfg) allowed Bidirectional.start.config c →
      .shutdown .done ∈ c.threads →
      (∀ r, .openStream (.returned r) ∈ c.threads →
        Met r (.start ∈ c.shared.trace) (.started ∈ c.shared.trace)
          (Bidirectional.Answered c.shared.control.done c.shared.trace)) ∧
      ((∀ t ∈ c.threads, t.reporting = 0) → .started ∈ c.shared.trace →
        Bidirectional.Answered c.shared.control.done c.shared.trace)) := by
  refine ⟨fun cfg allowed c h hdone r hr => ?_, fun cfg allowed c h hdone => ?_⟩
  · rcases Request.shutdown_cancels_request h hr hdone with hrefused | ⟨-, hmet⟩ | hfailed
    · exact .inl hrefused
    · exact .inr (.inl hmet)
    · exact .inr (.inr hfailed)
  · exact Bidirectional.shutdown_cancels_stream h hdone

/-- A shutdown comes between the native start of a request and the return from it. -/
def Request.shutsDownStarting : Schedule :=
  [(.start .load, go 6 ++ [.result none, .go]),
   (.outside .app, [.shutdown]), (.shutdown .close, go 2), (.control (.store .shutdown), go 6),
   (.start .startReturn, .result none :: go 9)]

/-- A shutdown comes between the native start of a stream and the return from it; then the
stream is ready. -/
def Bidirectional.shutsDownStarting : Schedule :=
  [(.openStream .load, go 8),
   (.outside .app, [.shutdown]), (.shutdown .close, go 9),
   (.openStream .startReturn, .result none :: go 12),
   (.outside .cronet, [.callback .streamReady]),
   (.callback (.entered .streamReady), go 7),
   (.openStream .ready, go 1)]

theorem shutdown_cancels_operation_starting :
    (let c := Pool.play (Request.step {}) (fun _ _ _ => true) Request.start
        Request.shutsDownStarting
     (.shutdown .done ∈ c.config.threads ∧ .start (.returned (.ok ())) ∈ c.config.threads) ∧
       Met (.ok ()) (.start ∈ c.config.shared.trace) (.started ∈ c.config.shared.trace)
         (Request.Answered c.config.shared.control.done c.config.shared.trace)) ∧
    (let c := Pool.play (Bidirectional.step {}) Bidirectional.unchecked Bidirectional.start
        Bidirectional.shutsDownStarting
     (.shutdown .done ∈ c.config.threads ∧
       .openStream (.returned (.ok ())) ∈ c.config.threads) ∧
       Met (.ok ()) (.start ∈ c.config.shared.trace) (.started ∈ c.config.shared.trace)
         (Bidirectional.Answered c.config.shared.control.done c.config.shared.trace)) := by
  refine ⟨⟨by decide +kernel, ?_⟩, ⟨by decide +kernel, ?_⟩⟩
  · refine shutdown_cancels_operation.1 {} (fun _ _ _ => True) _ ?_ (by decide +kernel) (.ok ())
      (by decide +kernel)
    exact play_reachable (fun _ _ _ _ => trivial) Request.shutsDownStarting Reachable.start
  · refine (shutdown_cancels_operation.2 {} (fun _ _ _ => True) _ ?_ (by decide +kernel)).1
      (.ok ()) (by decide +kernel)
    exact play_reachable (fun _ _ _ _ => trivial) Bidirectional.shutsDownStarting Reachable.start

/-- `closing` is set between `register` and the native start, which then fails. The shutdown
finds the request gone. -/
def Request.failsClosing : Schedule :=
  [(.start .load, go 6),
   (.outside .app, [.shutdown]), (.shutdown .close, go 1),
   (.start .init, [.result none, .go, .result (some .illegalArgument)] ++ go 7),
   (.shutdown .snapshot, go 5)]

/-- **A start that fails during a shutdown reports its own failure.** -/
theorem failed_start_not_cancelled :
    ∃ c, Reachable (Request.step {}) (fun _ _ _ => True) Request.start.config c ∧
      .shutdown .done ∈ c.threads ∧ .start ∈ c.shared.trace ∧
      .start (.returned (.error (.cronet .illegalArgument))) ∈ c.threads ∧
      .cancel ∉ c.shared.trace ∧ c.shared.control.done = false := by
  refine ⟨(Pool.play (Request.step {}) (fun _ _ _ => true) Request.start
    Request.failsClosing).config, ?_, by decide +kernel⟩
  exact play_reachable (fun _ _ _ _ => trivial) Request.failsClosing Reachable.start

end TokioCronet
