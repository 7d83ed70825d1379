import TokioCronet.Lib.Pool

/-!
# Following one thread

An invariant over a pool cannot tell two threads apart that stand in the same place, so it
cannot say of one call that it does something once. Here one thread is followed through a
run, into the first of its successors. What it does is noted; the others move in between as
they like.
-/

namespace Pool

variable {σ τ ι ω : Type*}

/-- Some schedule leads from `s₀` and `rest₀` with the thread `t₀` to `s` and `rest`, where
that thread has become `m`; its own steps were noted as `log`. -/
inductive Followed (step : Program σ τ ι) (allowed : Policy σ τ ι) (note : σ → τ → ι → σ → ω)
    (s₀ : σ) (t₀ : τ) (rest₀ : Multiset τ) : σ → Option τ → Multiset τ → List ω → Prop
  | start : Followed step allowed note s₀ t₀ rest₀ s₀ (some t₀) rest₀ []
  | own {s s' : σ} {t : τ} {ts : List τ} {rest : Multiset τ} {ch : ι} {log : List ω} :
      Followed step allowed note s₀ t₀ rest₀ s (some t) rest log →
      allowed ⟨s, t ::ₘ rest⟩ t ch → step s t ch = some (s', ts) →
      Followed step allowed note s₀ t₀ rest₀ s' ts.head? (ts.tail + rest)
        (log ++ [note s t ch s'])
  | other {s s' : σ} {m : Option τ} {u : τ} {ts : List τ} {rest : Multiset τ} {ch : ι}
      {log : List ω} :
      Followed step allowed note s₀ t₀ rest₀ s m (u ::ₘ rest) log →
      allowed ⟨s, u ::ₘ (m.toList + rest)⟩ u ch → step s u ch = some (s', ts) →
      Followed step allowed note s₀ t₀ rest₀ s' m (ts + rest) log

variable {step : Program σ τ ι} {allowed : Policy σ τ ι} {note : σ → τ → ι → σ → ω}
  {s₀ s : σ} {t₀ : τ} {rest₀ rest : Multiset τ} {m : Option τ} {log : List ω}
  {init : Config σ τ}

/-- A run in which a thread is followed is a run. -/
theorem Followed.reachable (h0 : Reachable step allowed init ⟨s₀, t₀ ::ₘ rest₀⟩)
    (h : Followed step allowed note s₀ t₀ rest₀ s m rest log) :
    Reachable step allowed init ⟨s, m.toList + rest⟩ := by
  induction h with
  | start => exact h0
  | @own s s' t ts rest ch log _ ha hn ih =>
    have hsplit : ((ts.head?.toList : Multiset τ) + (ts.tail + rest)) = ts + rest := by
      rw [← add_assoc, Multiset.coe_add]
      cases ts with
      | nil => rfl
      | cons t ts => rfl
    rw [hsplit]
    exact ih.tail (.run ha hn)
  | @other s s' m u ts rest ch log _ ha hn ih =>
    rw [Multiset.add_cons] at ih
    have hmoved : ((m.toList : Multiset τ) + (ts + rest)) = ts + (m.toList + rest) :=
      add_left_comm _ _ _
    rw [hmoved]
    exact ih.tail (.run ha hn)

/-- The thread goes on alone. -/
theorem Followed.goes {t t' : τ} {s' : σ} {ch : ι}
    (h : Followed step allowed note s₀ t₀ rest₀ s (some t) rest log)
    (ha : allowed ⟨s, t ::ₘ rest⟩ t ch) (hn : step s t ch = some (s', [t'])) :
    Followed step allowed note s₀ t₀ rest₀ s' (some t') rest (log ++ [note s t ch s']) := by
  have hown := h.own ha hn
  rw [List.tail_cons, Multiset.coe_nil, zero_add] at hown
  exact hown

/-- The thread ends. -/
theorem Followed.ends {t : τ} {s' : σ} {ch : ι}
    (h : Followed step allowed note s₀ t₀ rest₀ s (some t) rest log)
    (ha : allowed ⟨s, t ::ₘ rest⟩ t ch) (hn : step s t ch = some (s', [])) :
    Followed step allowed note s₀ t₀ rest₀ s' none rest (log ++ [note s t ch s']) := by
  have hown := h.own ha hn
  rw [List.tail_nil, Multiset.coe_nil, zero_add] at hown
  exact hown

/-- **What the thread's own steps keep holds of it through the run**, whatever the others do. -/
theorem Followed.invariant {P : Option τ → List ω → Prop} (h0 : P (some t₀) [])
    (hown : ∀ {s s' t ts ch log}, P (some t) log → step s t ch = some (s', ts) →
      P ts.head? (log ++ [note s t ch s']))
    (h : Followed step allowed note s₀ t₀ rest₀ s m rest log) : P m log := by
  induction h with
  | start => exact h0
  | own _ _ hn ih => exact hown ih hn
  | other _ _ _ ih => exact ih

end Pool
