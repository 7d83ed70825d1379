import TokioCronet.Lib.Pool

/-!
# Observed runs

What an observer has noted of a run is no part of its configurations: two runs can end
in the same one and look different on the way. Here the observer notes something of each
step, and what has been noted so far is carried along with the run.
-/

namespace Pool

variable {σ τ ι ω : Type*} {step : Program σ τ ι} {allowed : Policy σ τ ι}
  {note : Config σ τ → Config σ τ → List ω} {init c : Config σ τ} {log : List ω}

/-- Some schedule leads from `init` to the configuration, and its steps were noted as
`log`. -/
inductive Observed (step : Program σ τ ι) (allowed : Policy σ τ ι)
    (note : Config σ τ → Config σ τ → List ω) (init : Config σ τ) :
    Config σ τ → List ω → Prop
  | start : Observed step allowed note init init []
  | tail {c c' : Config σ τ} {log : List ω} : Observed step allowed note init c log →
      Step step allowed c c' → Observed step allowed note init c' (log ++ note c c')

theorem Observed.reachable (h : Observed step allowed note init c log) :
    Reachable step allowed init c := by
  induction h with
  | start => exact Reachable.start
  | tail _ hstep ih => exact ih.tail hstep

/-- Every run can be observed. -/
theorem Reachable.observed (note : Config σ τ → Config σ τ → List ω)
    (h : Reachable step allowed init c) : ∃ log, Observed step allowed note init c log := by
  induction h with
  | refl => exact ⟨[], .start⟩
  | tail _ hstep ih =>
    obtain ⟨log, hlog⟩ := ih
    exact ⟨log ++ note _ _, hlog.tail hstep⟩

/-- What holds at the start and survives every step, whatever is noted of it, holds of
every observed run. -/
theorem Observed.invariant {P : Config σ τ → List ω → Prop} (h0 : P init [])
    (hs : ∀ {c c' log}, Reachable step allowed init c → P c log → Step step allowed c c' →
      P c' (log ++ note c c'))
    (h : Observed step allowed note init c log) : P c log := by
  induction h with
  | start => exact h0
  | tail hr hstep ih => exact hs hr.reachable ih hstep

end Pool
