import TokioCronet.Lib.Pool

/-!
# Ghost state

What has happened in a run is not always left in its configurations. A ghost is carried
beside the shared state, and each step updates it by what it finds; the program does not
look at it, so every run of the program is one that a ghost goes along with, and the other
way round.
-/

namespace Pool

variable {σ τ ι γ : Type*} {step : Program σ τ ι} {note : γ → σ → τ → γ}
  {allowed : Policy σ τ ι} {s s' : σ × γ} {t : τ} {ch : ι} {ts : List τ}

/-- The program with a ghost. -/
def ghost (note : γ → σ → τ → γ) (step : Program σ τ ι) : Program (σ × γ) τ ι := fun s t ch =>
  (step s.1 t ch).map fun next => ((next.1, note s.2 s.1 t), next.2)

theorem ghost_step (h : ghost note step s t ch = some (s', ts)) :
    step s.1 t ch = some (s'.1, ts) ∧ s'.2 = note s.2 s.1 t := by
  obtain ⟨⟨next, ts'⟩, hn, heq⟩ := Option.map_eq_some_iff.mp h
  cases heq
  exact ⟨hn, rfl⟩

theorem step_ghost {next : σ} (g : γ) (h : step s.1 t ch = some (next, ts)) :
    ghost note step (s.1, g) t ch = some ((next, note g s.1 t), ts) := by
  rw [ghost, h]
  rfl

/-- A configuration without its ghost. -/
def Config.forget (c : Config (σ × γ) τ) : Config σ τ := ⟨c.shared.1, c.threads⟩

/-- A configuration with a ghost. -/
def Config.haunted (c : Config σ τ) (g : γ) : Config (σ × γ) τ := ⟨(c.shared, g), c.threads⟩

/-- Without its ghost a run is one of the program. -/
theorem Reachable.forget {allowed : Policy (σ × γ) τ ι} {init c : Config (σ × γ) τ}
    (h : Reachable (ghost note step) allowed init c) :
    Reachable step (fun _ _ _ => True) init.forget c.forget := by
  refine Reachable.project Config.forget Reachable.start ?_ h
  rintro _ _ - ⟨-, hn⟩
  exact .inr (Step.run trivial (ghost_step hn).1)

/-- **Every run has its ghost.** -/
theorem Reachable.haunted {init c : Config σ τ} (g : γ) (h : Reachable step allowed init c) :
    ∃ g', Reachable (ghost note step) (fun c => allowed c.forget) (init.haunted g)
      (c.haunted g') := by
  induction h with
  | refl => exact ⟨g, Reachable.start⟩
  | tail _ hs ih =>
    obtain ⟨g', hr⟩ := ih
    obtain ⟨ha, hn⟩ := hs
    rename_i s s' t ts rest ch _
    have hstep : Step (ghost note step) (fun c => allowed c.forget) ⟨(s, g'), t ::ₘ rest⟩
        ⟨(s', note g' s t), ts + rest⟩ := .run ha (step_ghost (s := (s, g')) g' hn)
    exact ⟨note g' s t, hr.tail hstep⟩

end Pool
