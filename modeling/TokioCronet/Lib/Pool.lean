import Mathlib.Algebra.BigOperators.Group.Multiset.Basic
import Mathlib.Algebra.GroupWithZero.Nat
import Mathlib.Logic.Relation

/-!
# Thread pools

A concurrent program as a shared state and a multiset of threads. One step picks
a thread, and the thread's program rewrites the shared state and replaces the
thread by what it becomes together with everything it spawned. Nothing orders
the threads, so a reachable configuration is reachable under *some* schedule and
an invariant holds under *all* of them.

What a thread may do in a step is a partial function of the shared state, the
thread and a choice; the choice stands for whatever the program does not decide
(the result of a foreign call, the argument of a callback). Which choices can
occur is a separate predicate on the whole configuration, so assumptions about
the environment and conditions on a run are stated without touching the program.

Two invariants carry almost every proof over such a system:

* a *ledger* says that a counter in the shared state is the sum, over the pool,
  of what each thread holds (a lock, a reference count, a lease);
* a *thread assertion* says of each thread what its program counter means for
  the shared state, and survives if no other thread can falsify it.
-/

namespace Pool

variable {σ τ ι : Type*}

/-- A shared state and the threads running over it. -/
structure Config (σ τ : Type*) where
  shared : σ
  threads : Multiset τ

/-- The program of every thread: a state, a thread and a choice give the next
state and the threads that take its place. -/
abbrev Program (σ τ ι : Type*) := σ → τ → ι → Option (σ × List τ)

/-- Which choices the environment may make for a thread of a configuration. -/
abbrev Policy (σ τ ι : Type*) := Config σ τ → τ → ι → Prop

/-- One thread takes one step. -/
inductive Step (step : Program σ τ ι) (allowed : Policy σ τ ι) :
    Config σ τ → Config σ τ → Prop
  | run {s s' : σ} {t : τ} {ts : List τ} {rest : Multiset τ} {ch : ι} :
      allowed ⟨s, t ::ₘ rest⟩ t ch → step s t ch = some (s', ts) →
      Step step allowed ⟨s, t ::ₘ rest⟩ ⟨s', ts + rest⟩

/-- Some schedule leads from `init` to the configuration. -/
def Reachable (step : Program σ τ ι) (allowed : Policy σ τ ι) (init : Config σ τ) :
    Config σ τ → Prop :=
  Relation.ReflTransGen (Step step allowed) init

/-! ## The outcome of a step -/

section Outcome

variable {s s' : σ} {ts ts' : List τ}

/-- A step that is not taken leads anywhere. -/
theorem of_none {p : Prop} (h : (none : Option (σ × List τ)) = some (s', ts')) : p := by
  cases h

/-- What holds after a step holds of its outcome. -/
theorem of_some {P : σ → List τ → Prop} (h : P s ts) :
    some (s, ts) = some (s', ts') → P s' ts' := by
  intro heq
  cases heq
  exact h

end Outcome

section Runs

variable {step : Program σ τ ι} {allowed : Policy σ τ ι} {init c c' : Config σ τ}

theorem Reachable.start : Reachable step allowed init init := Relation.ReflTransGen.refl

theorem Reachable.tail (h : Reachable step allowed init c) (hs : Step step allowed c c') :
    Reachable step allowed init c' := Relation.ReflTransGen.tail h hs

/-- What holds at the start and survives every step holds in every run. -/
theorem Reachable.invariant {P : Config σ τ → Prop} (h0 : P init)
    (hs : ∀ {c c'}, Reachable step allowed init c → P c → Step step allowed c c' → P c')
    (h : Reachable step allowed init c) : P c := by
  induction h with
  | refl => exact h0
  | tail hr hstep ih => exact hs hr ih hstep

/-- A stricter environment reaches fewer configurations. -/
theorem Reachable.mono {allowed' : Policy σ τ ι}
    (hle : ∀ c t ch, allowed c t ch → allowed' c t ch)
    (h : Reachable step allowed init c) : Reachable step allowed' init c := by
  refine Relation.ReflTransGen.mono ?_ _ _ h
  rintro _ _ ⟨ha, hn⟩
  exact Step.run (hle _ _ _ ha) hn

/-- **Projection rule.** If every step, seen through `f`, is a step of another program or
none at all, then what one program reaches is seen as something that the other reaches. -/
theorem Reachable.project {σ' τ' ι' : Type*} {step' : Program σ' τ' ι'}
    {allowed' : Policy σ' τ' ι'} {init' : Config σ' τ'} (f : Config σ τ → Config σ' τ')
    (h0 : Reachable step' allowed' init' (f init))
    (hs : ∀ {c c'}, Reachable step allowed init c → Step step allowed c c' →
      f c' = f c ∨ Step step' allowed' (f c) (f c'))
    (h : Reachable step allowed init c) : Reachable step' allowed' init' (f c) := by
  induction h with
  | refl => exact h0
  | tail hr hstep ih =>
    rcases hs hr hstep with heq | hstep'
    · rw [heq]
      exact ih
    · exact ih.tail hstep'

end Runs

/-! ## Ledgers -/

/-- What the threads of a pool hold together. -/
def total (w : τ → ℕ) (m : Multiset τ) : ℕ := (m.map w).sum

@[simp] theorem total_zero (w : τ → ℕ) : total w 0 = 0 := by simp [total]

@[simp] theorem total_cons (w : τ → ℕ) (t : τ) (m : Multiset τ) :
    total w (t ::ₘ m) = w t + total w m := by simp [total]

@[simp] theorem total_add (w : τ → ℕ) (m n : Multiset τ) :
    total w (m + n) = total w m + total w n := by simp [total]

@[simp] theorem total_coe (w : τ → ℕ) (l : List τ) :
    total w (l : Multiset τ) = (l.map w).sum := by simp [total]

/-- A thread holds no more than the pool it is in. -/
theorem le_total {w : τ → ℕ} {t : τ} {m : Multiset τ} (h : t ∈ m) : w t ≤ total w m := by
  obtain ⟨rest, rfl⟩ := Multiset.exists_cons_of_mem h
  simp

/-- What is worth no more in every thread is worth no more in the pool. -/
theorem total_le_total {v w : τ → ℕ} {m : Multiset τ} (h : ∀ t, v t ≤ w t) :
    total v m ≤ total w m := by
  induction m using Multiset.induction with
  | empty => simp
  | cons t m ih =>
    rw [total_cons, total_cons]
    exact Nat.add_le_add (h t) ih

/-- Nothing is held exactly when every thread holds nothing. -/
theorem total_eq_zero {w : τ → ℕ} {m : Multiset τ} : total w m = 0 ↔ ∀ t ∈ m, w t = 0 := by
  constructor
  · intro h t ht
    have hle : w t ≤ total w m := le_total ht
    omega
  · intro h
    rw [total, Multiset.map_congr rfl h]
    simp

/-- **Ledger rule.** If a step moves the counter by as much as its thread gains
or gives up, the counter stays the sum over the pool. -/
theorem ledger_step {w : τ → ℕ} {n n' : ℕ} {t : τ} {ts : List τ} {rest : Multiset τ}
    (h : n = total w (t ::ₘ rest))
    (hstep : w t ≤ n → n' + w t = n + (ts.map w).sum) :
    n' = total w (ts + rest) := by
  rw [total_cons] at h
  have := hstep (by omega)
  rw [total_add, total_coe]
  omega

/-- **Budget rule.** What can only be passed on or used up never exceeds what
there was of it. -/
theorem budget_step {w : τ → ℕ} {n n' k : ℕ} {t : τ} {ts : List τ} {rest : Multiset τ}
    (h : n + total w (t ::ₘ rest) ≤ k) (hstep : n' + (ts.map w).sum ≤ n + w t) :
    n' + total w (ts + rest) ≤ k := by
  rw [total_cons] at h
  rw [total_add, total_coe]
  omega

/-- What is passed on or used up, and never lost, stays what there was of it. -/
theorem balance_step {w : τ → ℕ} {n n' k : ℕ} {t : τ} {ts : List τ} {rest : Multiset τ}
    (h : n + total w (t ::ₘ rest) = k) (hstep : n' + (ts.map w).sum = n + w t) :
    n' + total w (ts + rest) = k := by
  rw [total_cons] at h
  rw [total_add, total_coe]
  omega

/-- What can only be passed on never becomes more. -/
theorem passed_step {w : τ → ℕ} {k : ℕ} {t : τ} {ts : List τ} {rest : Multiset τ}
    (h : total w (t ::ₘ rest) ≤ k) (hstep : (ts.map w).sum ≤ w t) :
    total w (ts + rest) ≤ k := by
  rw [total_cons] at h
  rw [total_add, total_coe]
  omega

/-- Two threads of one pool hold together no more than the pool. -/
theorem add_le_total {w : τ → ℕ} {t u : τ} {rest : Multiset τ} (h : u ∈ rest) :
    w t + w u ≤ total w (t ::ₘ rest) := by
  rw [total_cons]
  exact Nat.add_le_add_left (le_total h) _

theorem add_le_total_of_ne {w : τ → ℕ} {m : Multiset τ} {t u : τ} (ht : t ∈ m) (hu : u ∈ m)
    (hne : u ≠ t) : w t + w u ≤ total w m := by
  obtain ⟨rest, rfl⟩ := Multiset.exists_cons_of_mem ht
  exact add_le_total ((Multiset.mem_cons.mp hu).resolve_left hne)

/-- What the pool holds, some thread holds. -/
theorem exists_of_total_ne {w : τ → ℕ} {m : Multiset τ} (h : total w m ≠ 0) :
    ∃ t ∈ m, w t ≠ 0 := by
  by_contra hnone
  push Not at hnone
  exact h (total_eq_zero.mpr hnone)

/-! ## Thread assertions -/

/-- **Assertion rule.** Every thread keeps its assertion if the one that moved
establishes it for its successors and the others keep theirs. -/
theorem forall_step {A A' : τ → Prop} {t : τ} {ts : List τ} {rest : Multiset τ}
    (h : ∀ u ∈ t ::ₘ rest, A u) (hown : A t → ∀ u ∈ ts, A' u)
    (hother : ∀ u ∈ rest, A u → A' u) :
    ∀ u ∈ (ts : Multiset τ) + rest, A' u := by
  intro u hu
  rcases Multiset.mem_add.mp hu with hu | hu
  · exact hown (h t (Multiset.mem_cons_self t rest)) u (Multiset.mem_coe.mp hu)
  · exact hother u hu (h u (Multiset.mem_cons_of_mem hu))

/-! ## Executing a schedule -/

section Exec

/-- A configuration whose threads are listed, so that a schedule can name one. -/
structure Listed (σ τ : Type*) where
  shared : σ
  threads : List τ

/-- Forget the order of the threads. -/
def Listed.config (c : Listed σ τ) : Config σ τ := ⟨c.shared, c.threads⟩

/-- Let the thread at position `i` take a step; a step that is not enabled or
not allowed changes nothing. -/
def exec (step : Program σ τ ι) (allowed : Listed σ τ → τ → ι → Bool) (c : Listed σ τ)
    (i : ℕ) (ch : ι) : Listed σ τ :=
  match c.threads[i]? with
  | none => c
  | some t =>
    if allowed c t ch then
      match step c.shared t ch with
      | none => c
      | some (s', ts) => ⟨s', ts ++ c.threads.eraseIdx i⟩
    else c

/-- Execute a whole schedule. -/
def run (step : Program σ τ ι) (allowed : Listed σ τ → τ → ι → Bool) (c : Listed σ τ)
    (sched : List (ℕ × ι)) : Listed σ τ :=
  sched.foldl (fun c p => exec step allowed c p.1 p.2) c

variable {step : Program σ τ ι} {allowed : Policy σ τ ι} {init : Config σ τ}
  {allowedb : Listed σ τ → τ → ι → Bool}

theorem exec_reachable (hb : ∀ c t ch, allowedb c t ch = true → allowed c.config t ch)
    {c : Listed σ τ} (h : Reachable step allowed init c.config) (i : ℕ) (ch : ι) :
    Reachable step allowed init (exec step allowedb c i ch).config := by
  unfold exec
  split
  · exact h
  · rename_i t ht
    split
    · rename_i ha
      split
      · exact h
      · rename_i s' ts hn
        obtain ⟨hi, rfl⟩ := List.getElem?_eq_some_iff.mp ht
        have hperm : (c.threads : Multiset τ) =
            c.threads[i] ::ₘ (c.threads.eraseIdx i : Multiset τ) :=
          (Multiset.coe_eq_coe.mpr (List.getElem_cons_eraseIdx_perm hi)).symm
        have hc : c.config = ⟨c.shared, c.threads[i] ::ₘ (c.threads.eraseIdx i : Multiset τ)⟩ := by
          rw [Listed.config, hperm]
        have ha' := hb _ _ _ ha
        rw [hc] at h ha'
        have := h.tail (Step.run ha' hn)
        simpa [Listed.config] using this
    · exact h

/-- **A schedule only visits reachable configurations.** -/
theorem run_reachable (hb : ∀ c t ch, allowedb c t ch = true → allowed c.config t ch)
    (sched : List (ℕ × ι)) : ∀ {c : Listed σ τ}, Reachable step allowed init c.config →
    Reachable step allowed init (run step allowedb c sched).config := by
  induction sched with
  | nil => intro c h; exact h
  | cons p sched ih => intro c h; exact ih (exec_reachable hb h p.1 p.2)

/-- Let one thread take several steps in a row; after each it is followed into
the first of its successors. -/
def turn [DecidableEq τ] (step : Program σ τ ι) (allowed : Listed σ τ → τ → ι → Bool)
    (c : Listed σ τ) (t : τ) : List ι → Listed σ τ
  | [] => c
  | ch :: chs =>
    run step allowed (exec step allowed c (c.threads.idxOf t) ch) (chs.map fun ch => (0, ch))

/-- Execute a schedule that names its threads. -/
def play [DecidableEq τ] (step : Program σ τ ι) (allowed : Listed σ τ → τ → ι → Bool)
    (c : Listed σ τ) (sched : List (τ × List ι)) : Listed σ τ :=
  sched.foldl (fun c p => turn step allowed c p.1 p.2) c

theorem play_reachable [DecidableEq τ]
    (hb : ∀ c t ch, allowedb c t ch = true → allowed c.config t ch)
    (sched : List (τ × List ι)) : ∀ {c : Listed σ τ}, Reachable step allowed init c.config →
    Reachable step allowed init (play step allowedb c sched).config := by
  induction sched with
  | nil => intro c h; exact h
  | cons p sched ih =>
    intro c h
    refine ih ?_
    obtain ⟨t, chs⟩ := p
    cases chs with
    | nil => exact h
    | cons ch chs => exact run_reachable hb _ (exec_reachable hb h _ ch)

end Exec

end Pool
