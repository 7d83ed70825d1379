import TokioCronet.Lib.Pool

/-!
# Waiting until a counter is zero

A waiter reads a counter, creates a future, reads the counter once more and waits for
the future. Whoever takes the counter to zero wakes all futures that there are. The two
are separate steps, and a future created after the wake-up is not completed by it.

A wake-up is the next number of an epoch, and a future is the epoch it was created in.
No wake-up is lost: while a future waits for one that has not come, the counter is
above zero or a thread is on its way to wake.
-/

namespace Pool

variable {σ τ ι : Type*}

/-- What a wait is made of. -/
structure IdleWait (σ τ : Type*) where
  count : σ → ℕ
  epoch : σ → ℕ
  /-- A thread that has taken the counter to zero and is about to wake. -/
  wakes : τ → Bool
  /-- The epoch that the future of a waiter was created in. -/
  armed : τ → Option ℕ
  /-- That of a waiter that has read the counter for the second time. -/
  parked : τ → Option ℕ
  parked_armed : ∀ t e, parked t = some e → armed t = some e

namespace IdleWait

variable {w : IdleWait σ τ} {s s' : σ} {t : τ} {ts : List τ} {rest : Multiset τ}
  {c : Config σ τ}

/-- What every step has to keep to. -/
structure Keeps (w : IdleWait σ τ) (s : σ) (t : τ) (s' : σ) (ts : List τ) : Prop where
  /-- Epochs are not taken back. -/
  epoch : w.epoch s ≤ w.epoch s'
  /-- Who takes the counter to zero wakes, or is about to. -/
  idle : w.epoch s' = w.epoch s → w.count s ≠ 0 → w.count s' = 0 → ∃ u ∈ ts, w.wakes u = true
  /-- Who has to wake still has to, or has woken. -/
  wakes : w.epoch s' = w.epoch s → w.wakes t = true → ∃ u ∈ ts, w.wakes u = true
  /-- A future is of the epoch in which it was created. -/
  armed : ∀ u ∈ ts, ∀ e, w.armed u = some e → w.armed t = some e ∨ e = w.epoch s
  /-- A waiter parks only while the count is not zero. -/
  parked : ∀ u ∈ ts, ∀ e, w.parked u = some e → w.count s' ≠ 0

/-- Threads without a future. -/
theorem Keeps.unarmed (hepoch : w.epoch s ≤ w.epoch s')
    (hidle : w.epoch s' = w.epoch s → w.count s ≠ 0 → w.count s' = 0 → ∃ u ∈ ts, w.wakes u = true)
    (hwakes : w.epoch s' = w.epoch s → w.wakes t = true → ∃ u ∈ ts, w.wakes u = true)
    (harmed : ts.filterMap w.armed = []) : w.Keeps s t s' ts := by
  have hnone : ∀ u ∈ ts, w.armed u = none := List.filterMap_eq_nil_iff.mp harmed
  refine ⟨hepoch, hidle, hwakes, ?_, ?_⟩
  · intro u hu e he
    rw [hnone u hu] at he
    cases he
  · intro u hu e he
    have harmed := w.parked_armed u e he
    rw [hnone u hu] at harmed
    cases harmed

/-- A step that has nothing to do with the wait. -/
theorem Keeps.quiet (hepoch : w.epoch s' = w.epoch s)
    (hcount : w.count s ≠ 0 → w.count s' ≠ 0) (hwakes : w.wakes t = false)
    (harmed : ts.filterMap w.armed = []) : w.Keeps s t s' ts := by
  refine .unarmed hepoch.ge (fun _ hne hzero => absurd hzero (hcount hne)) ?_ harmed
  intro _ ht
  rw [hwakes] at ht
  cases ht

/-- The last one goes, and is about to wake. -/
theorem Keeps.drops (hepoch : w.epoch s' = w.epoch s) (hwakes : ∃ u ∈ ts, w.wakes u = true)
    (harmed : ts.filterMap w.armed = []) : w.Keeps s t s' ts :=
  .unarmed hepoch.ge (fun _ _ _ => hwakes) (fun _ _ => hwakes) harmed

/-- All futures that there are are woken. -/
theorem Keeps.wake (hepoch : w.epoch s < w.epoch s') (harmed : ts.filterMap w.armed = []) :
    w.Keeps s t s' ts :=
  .unarmed hepoch.le (fun h => absurd h hepoch.ne') (fun h => absurd h hepoch.ne') harmed

/-- A waiter creates its future, or waits for it once the counter is not zero. -/
theorem Keeps.arms {u : τ} (hwakes : w.wakes t = false)
    (harmed : ∀ e, w.armed u = some e → w.armed t = some e ∨ e = w.epoch s)
    (hparked : w.count s = 0 → w.parked u = none) : w.Keeps s t s [u] := by
  refine ⟨le_refl _, fun _ hne hzero => absurd hzero hne, ?_, ?_, ?_⟩
  · intro _ ht
    rw [hwakes] at ht
    cases ht
  · intro v hv e he
    rw [List.mem_singleton.mp hv] at he
    exact harmed e he
  · intro v hv e he hzero
    rw [List.mem_singleton.mp hv, hparked hzero] at he
    cases he

/-- No future is of an epoch to come, and one that waits in this epoch will be woken. -/
structure Inv (w : IdleWait σ τ) (c : Config σ τ) : Prop where
  /-- Futures are of epochs that were. -/
  armed : ∀ t ∈ c.threads, ∀ e, w.armed t = some e → e ≤ w.epoch c.shared
  /-- A waiter of this epoch will be woken. -/
  woken : ∀ t ∈ c.threads, w.parked t = some (w.epoch c.shared) → w.count c.shared = 0 →
    ∃ u ∈ c.threads, w.wakes u = true

theorem Inv.step (hi : w.Inv ⟨s, t ::ₘ rest⟩) (h : w.Keeps s t s' ts) :
    w.Inv ⟨s', ts + rest⟩ := by
  have hmem : ∀ u ∈ rest, u ∈ t ::ₘ rest := fun u hu => Multiset.mem_cons_of_mem hu
  constructor
  · intro u hu e he
    refine le_trans ?_ h.epoch
    rcases Multiset.mem_add.mp hu with hu | hu
    · rcases h.armed u (Multiset.mem_coe.mp hu) e he with ht | rfl
      · exact hi.armed t (Multiset.mem_cons_self t rest) e ht
      · exact le_refl _
    · exact hi.armed u (hmem u hu) e he
  · intro u hu hparked hzero
    rcases Multiset.mem_add.mp hu with hu | hu
    · exact absurd hzero (h.parked u (Multiset.mem_coe.mp hu) _ hparked)
    · -- a future of before the step waits, so the step did not wake
      have hle : w.epoch s' ≤ w.epoch s :=
        hi.armed u (hmem u hu) _ (w.parked_armed u _ hparked)
      have hepoch : w.epoch s' = w.epoch s := le_antisymm hle h.epoch
      by_cases hcount : w.count s = 0
      · obtain ⟨v, hv, hwakes⟩ := hi.woken u (hmem u hu) (hepoch ▸ hparked) hcount
        rcases Multiset.mem_cons.mp hv with rfl | hv
        · obtain ⟨v', hv', hwakes'⟩ := h.wakes hepoch hwakes
          exact ⟨v', Multiset.mem_add.mpr (.inl (Multiset.mem_coe.mpr hv')), hwakes'⟩
        · exact ⟨v, Multiset.mem_add.mpr (.inr hv), hwakes⟩
      · obtain ⟨v, hv, hwakes⟩ := h.idle hepoch hcount hzero
        exact ⟨v, Multiset.mem_add.mpr (.inl (Multiset.mem_coe.mpr hv)), hwakes⟩

/-- **No wake-up is lost** in a program whose steps keep to the wait. -/
theorem inv_reachable {step : Program σ τ ι} {allowed : Policy σ τ ι} {init : Config σ τ}
    (hkeeps : ∀ {s s' t ch ts}, step s t ch = some (s', ts) → w.Keeps s t s' ts)
    (hinit : ∀ t ∈ init.threads, w.armed t = none) (h : Reachable step allowed init c) :
    w.Inv c := by
  refine h.invariant ⟨?_, ?_⟩ fun {c c'} _ hi hs => ?_
  · intro t ht e he
    rw [hinit t ht] at he
    cases he
  · intro t ht he
    have harmed := w.parked_armed t _ he
    rw [hinit t ht] at harmed
    cases harmed
  · obtain ⟨-, hn⟩ := hs
    exact hi.step (hkeeps hn)

end IdleWait

end Pool
