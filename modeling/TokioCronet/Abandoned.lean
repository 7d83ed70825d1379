import TokioCronet.Bidirectional.Abandoned
import TokioCronet.Request.Abandoned
import TokioCronet.Request.Destruction

/-!
# Letting go

The caller of a request or of a bidirectional stream may drop what it holds at any time, in
any phase and against any callback.
-/

namespace TokioCronet

open Pool

/-- What the caller has let go of is not left running. -/
def LetGo {σ τ : Type*} (caller : τ → ℕ) (left : σ → Prop) (c : Config σ τ) : Prop :=
  (∀ t ∈ c.threads, caller t = 0) → left c.shared

/-- Letting go is never stuck: a drop that has begun can go on, or a thread that has the gate
can. -/
def DropGoes {σ τ ι : Type*} (step : Program σ τ ι) (gate : τ → ℕ) (drops : τ → Bool)
    (c : Config σ τ) : Prop :=
  ∀ t ∈ c.threads, drops t = true →
    ∃ u ∈ c.threads, (u = t ∨ gate u ≠ 0) ∧ ∃ ch, step c.shared u ch ≠ none

/-- **What the caller abandons is done or cancelled.** Whoever dropped the future of a request,
its response or its body, the future of `open` or the stream: if the native start succeeded,
the terminal callback has set `done` or a native cancel was issued after the start. A drop is
never stuck on its way there, on a stream as long as Cronet reports its headers once and each
read once. -/
theorem abandoned_cancelled :
    (∀ (cfg : Request.Settings)
      (allowed : Policy Request.Shared Request.Thread Request.Choice)
      (c : Config Request.Shared Request.Thread),
      Reachable (Request.step cfg) allowed Request.start.config c →
        LetGo Request.Thread.caller Request.Left c ∧
        DropGoes (Request.step cfg) Request.Thread.gate Request.Thread.drops c) ∧
    (∀ (cfg : Bidirectional.Settings)
      (allowed : Policy Bidirectional.Shared Bidirectional.Thread Bidirectional.Choice)
      (c : Config Bidirectional.Shared Bidirectional.Thread),
      Reachable (Bidirectional.step cfg) allowed Bidirectional.start.config c →
        LetGo Bidirectional.Thread.caller Bidirectional.Left c ∧
        ((∀ c t ch, allowed c t ch → Bidirectional.ReadsOnce c t ch) →
          DropGoes (Bidirectional.step cfg) Bidirectional.Thread.gate
            Bidirectional.Thread.drops c)) := by
  refine ⟨fun cfg allowed c h => ⟨?_, ?_⟩, fun cfg allowed c h => ⟨?_, ?_⟩⟩
  · exact Request.abandoned_answered h
  · exact fun t ht => Request.drop_goes h ht
  · exact Bidirectional.abandoned_answered h
  · intro honce t ht
    exact Bidirectional.drop_goes (h.mono honce) ht

/-- A `PendingRequest` whose headers have come is dropped before it is polled. -/
def Request.dropsPending : Schedule :=
  starts ++ enters (.responseStarted okInfo) ++
  [(.runnable .entered (.responseStarted okInfo), go 2), (.execute .headers, .drop :: go 8)]

/-- `open` is dropped while the stream becomes ready. -/
def Bidirectional.dropsOpen : Schedule :=
  [(.openStream .load, go 8 ++ [.result none] ++ go 3),
   (.outside .cronet, [.callback .streamReady]),
   (.callback (.entered .streamReady), go 7),
   (.openStream .ready, .drop :: go 9)]

theorem abandoned_cancelled_dropped :
    (let c := Pool.play (Request.step {}) (fun _ _ _ => true) Request.start Request.dropsPending
     ((∃ info, c.shared.context.headers = some (.ok info)) ∧ .started ∈ c.shared.trace ∧
       c.shared.control.done = false) ∧ Request.Left c.config.shared) ∧
    (let c := Pool.play (Bidirectional.step {}) (fun _ _ _ => true) Bidirectional.start
        Bidirectional.dropsOpen
     (c.shared.context.ready = some (.ok ()) ∧ .started ∈ c.shared.trace ∧
       c.shared.control.done = false) ∧ Bidirectional.Left c.config.shared) := by
  refine ⟨⟨⟨⟨Request.okInfo, by decide +kernel⟩, by decide +kernel, by decide +kernel⟩, ?_⟩,
    ⟨by decide +kernel, by decide +kernel, by decide +kernel⟩, ?_⟩
  · refine (abandoned_cancelled.1 {} (fun _ _ _ => True) _ ?_).1 ?_
    · exact play_reachable (fun _ _ _ _ => trivial) Request.dropsPending Reachable.start
    · intro t ht
      have hall : (Pool.play (Request.step {}) (fun _ _ _ => true) Request.start
          Request.dropsPending).threads.all (fun u => u.caller == 0) = true := by decide +kernel
      exact beq_iff_eq.mp (List.all_eq_true.mp hall t (Multiset.mem_coe.mp ht))
  · refine (abandoned_cancelled.2 {} (fun _ _ _ => True) _ ?_).1 ?_
    · exact play_reachable (fun _ _ _ _ => trivial) Bidirectional.dropsOpen Reachable.start
    · intro t ht
      have hall : (Pool.play (Bidirectional.step {}) (fun _ _ _ => true) Bidirectional.start
          Bidirectional.dropsOpen).threads.all (fun u => u.caller == 0) = true := by decide +kernel
      exact beq_iff_eq.mp (List.all_eq_true.mp hall t (Multiset.mem_coe.mp ht))

end TokioCronet
