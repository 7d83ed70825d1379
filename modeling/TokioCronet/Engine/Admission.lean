import TokioCronet.Engine.Machine
import TokioCronet.Lib.Trace

/-!
# Admission and teardown

An operation is admitted only while `closing` is unset, and the native engine is
torn down only once nothing is left that could still use it.

`begin_operation` reads `closing` under the mutex under which `shutdown` sets it,
so the number of live operations can only fall afterwards; requests are begun by
live operations, so from the moment that number is zero the count of unfinished
requests can only fall as well. The two waits of the initialiser are therefore
sound one after the other. The path through `Drop for EngineInner` never sets
`closing`; there the strong count plays that part, because an operation and every
call in progress keep the engine alive.
-/

namespace TokioCronet.Engine

open Pool

variable {κ : Type} {s s' : Shared} {t u : Thread κ} {ch : Choice κ} {ts : List (Thread κ)}

/-! ## What threads hold -/

/-- Locks of the `native` mutex. -/
def Thread.locks : Thread κ → Nat
  | .beginCheck _ | .beginNative _ | .beginCount _ | .beginUnlock _ | .beginFail
  | .shutdownStore | .shutdownUnlock | .takeNative | .takeUnlock _ => 1
  | _ => 0

/-- Live operations: counted by `fetch_add` and not yet given back by the
`fetch_sub` of their `Drop`. -/
def Thread.operations : Thread κ → Nat
  | .beginUnlock _ | .admitted _ | .registered _ | .begun _ | .aborting
  | .operation | .dropOperation => 1
  | _ => 0

/-- Strong references to `EngineInner`; a caller that owns an operation has its
own and the operation's. -/
def Thread.arcs : Thread κ → Nat
  | .cronet | .finishing | .dropInner | .waitBlocking
  | .nativeShutdown _ | .nativeStop _ | .nativeDestroy _ | .nativeDone _ _ => 0
  | .beginUnlock _ | .admitted _ | .registered _ | .begun _ | .aborting => 2
  | _ => 1

/-- The `NativeEngine`, taken out of its slot and not yet shut down. -/
def Thread.owns : Thread κ → Nat
  | .waitBlocking | .takeUnlock true | .nativeShutdown _ => 1
  | _ => 0

theorem step_locks (h : step s t ch = some (s', ts)) (hle : t.locks ≤ s.nativeLock.toNat) :
    s'.nativeLock.toNat + t.locks = s.nativeLock.toNat + (ts.map Thread.locks).sum := by
  have hbound := Bool.toNat_le s.nativeLock
  revert h hle
  fun_cases step s t ch <;> first | exact of_none | apply of_some
  all_goals (intro hle; simp_all [Thread.locks])
  all_goals first | omega | (split <;> simp [Thread.locks])

theorem step_operations (h : step s t ch = some (s', ts)) (hle : t.operations ≤ s.active) :
    s'.active + t.operations = s.active + (ts.map Thread.operations).sum := by
  revert h hle
  fun_cases step s t ch <;> first | exact of_none | apply of_some
  all_goals (intro hle; simp_all [Thread.operations])
  all_goals first | omega | (split <;> simp [Thread.operations])

theorem step_arcs (h : step s t ch = some (s', ts)) (hle : t.arcs ≤ s.arcs) :
    s'.arcs + t.arcs = s.arcs + (ts.map Thread.arcs).sum := by
  revert h hle
  fun_cases step s t ch <;> first | exact of_none | apply of_some
  all_goals (intro hle; simp_all [Thread.arcs])
  all_goals first | omega | (split <;> simp [Thread.arcs])

/-- A thread without a reference leaves the strong count alone. -/
theorem step_arcs_of_zero (h : step s t ch = some (s', ts)) (ht : t.arcs = 0) :
    s'.arcs = s.arcs := by
  revert h ht
  fun_cases step s t ch <;> first | exact of_none | apply of_some
  all_goals (intro ht; first | rfl | simp [Thread.arcs] at ht)

/-- The slot, the runs of `NativeEngine::shutdown` and the engines on the way to
one: none of them is ever made anew. -/
theorem step_owns (h : step s t ch = some (s', ts)) :
    s'.native.toNat + s'.trace.count .nativeShutdown + (ts.map Thread.owns).sum ≤
      s.native.toNat + s.trace.count .nativeShutdown + t.owns := by
  revert h
  fun_cases step s t ch <;> first | exact of_none | apply of_some
  all_goals simp_all [Thread.owns, List.count_append]
  all_goals first | omega | (split <;> simp_all [Thread.owns, Nat.add_comm])

/-! ## What a program counter means -/

/-- `closing` was read as unset under the lock that is still held. -/
def Thread.admitting : Thread κ → Bool
  | .beginNative _ | .beginCount _ => true
  | _ => false

/-- `closing` has been set. -/
def Thread.pastClosing : Thread κ → Bool
  | .shutdownUnlock | .shutdownCell | .waitActive | .armActive | .recheckActive _
  | .parkActive _ | .waitIdle | .checkIdle _ | .parkIdle _ | .takeLock | .takeNative
  | .takeUnlock _ | .nativeShutdown .blocking => true
  | _ => false

/-- `active` was read as zero. -/
def Thread.pastActive : Thread κ → Bool
  | .waitIdle | .checkIdle _ | .parkIdle _ | .takeLock | .takeNative | .takeUnlock _
  | .nativeShutdown .blocking => true
  | _ => false

/-- `pending` was read as zero. -/
def Thread.pastPending : Thread κ → Bool
  | .takeLock | .takeNative | .takeUnlock _ | .nativeShutdown _ => true
  | _ => false

/-- The strong count has reached zero. -/
def Thread.orphaned : Thread κ → Bool
  | .dropInner | .waitBlocking | .nativeShutdown .dropped => true
  | _ => false

/-- What a thread may rely on where it stands. -/
@[mk_iff]
structure Sound (s : Shared) (t : Thread κ) : Prop where
  /-- Admission is still open. -/
  admitting : t.admitting → s.closing = false
  /-- Admission is over. -/
  closing : t.pastClosing → s.closing = true
  /-- No operation is live. -/
  active : t.pastActive → s.active = 0
  /-- No finished callback is outstanding. -/
  pending : t.pastPending → s.finished.pending = 0
  /-- No reference is left. -/
  arcs : t.orphaned → s.arcs = 0

/-- A thread that relies on something. -/
def Thread.relies (t : Thread κ) : Bool :=
  t.admitting || t.pastClosing || t.pastActive || t.pastPending || t.orphaned

theorem sound_none {l : List (Thread κ)} (h : (l.all fun u => !u.relies) = true) :
    ∀ u ∈ l, Sound s u := by
  intro u hu
  have hu' := List.all_eq_true.mp h u hu
  simp only [Thread.relies, Bool.not_eq_true', Bool.or_eq_false_iff] at hu'
  obtain ⟨⟨⟨⟨hadmitting, hclosing⟩, hactive⟩, hpending⟩, horphaned⟩ := hu'
  constructor <;> intro hr
  · exact absurd (hadmitting.symm.trans hr) Bool.false_ne_true
  · exact absurd (hclosing.symm.trans hr) Bool.false_ne_true
  · exact absurd (hactive.symm.trans hr) Bool.false_ne_true
  · exact absurd (hpending.symm.trans hr) Bool.false_ne_true
  · exact absurd (horphaned.symm.trans hr) Bool.false_ne_true

/-- A thread that goes on relies on no more than before. -/
theorem sound_along (ht : Sound s t) (hclosing : s'.closing = s.closing)
    (hactive : s'.active = s.active) (hpending : s'.finished.pending = s.finished.pending)
    (harcs : s'.arcs = s.arcs) (hadmitting : u.admitting = true → t.admitting = true)
    (hpast : u.pastClosing = true → t.pastClosing = true)
    (hpastActive : u.pastActive = true → t.pastActive = true)
    (hpastPending : u.pastPending = true → t.pastPending = true)
    (horphaned : u.orphaned = true → t.orphaned = true) : ∀ v ∈ [u], Sound s' v := by
  refine List.forall_mem_singleton.mpr ⟨?_, ?_, ?_, ?_, ?_⟩
  · exact fun h => hclosing.trans (ht.admitting (hadmitting h))
  · exact fun h => hclosing.trans (ht.closing (hpast h))
  · exact fun h => hactive.trans (ht.active (hpastActive h))
  · exact fun h => hpending.trans (ht.pending (hpastPending h))
  · exact fun h => harcs.trans (ht.arcs (horphaned h))

/-- A thread establishes for its successors what they rely on. -/
theorem step_sound (h : step s t ch = some (s', ts)) (ht : Sound s t) :
    ∀ u ∈ ts, Sound s' u := by
  revert h ht
  fun_cases step s t ch <;> first | exact of_none | (apply of_some; intro ht)
  all_goals first
    | exact sound_none rfl
    | exact sound_along ht rfl rfl rfl rfl id id id id id
    | (split <;> exact sound_none rfl)
    | (rw [sound_iff] at ht
       simp_all [sound_iff, Thread.admitting, Thread.pastClosing, Thread.pastActive,
         Thread.pastPending, Thread.orphaned])
  all_goals split <;> simp_all

/-! ## What a step leaves alone -/

theorem step_closing_mono (h : step s t ch = some (s', ts)) (hc : s.closing = true) :
    s'.closing = true := by
  revert h hc
  fun_cases step s t ch <;> first | exact of_none | apply of_some
  all_goals (intro hc; first | exact hc | rfl)

/-- Only the holder of the `native` mutex sets `closing`. -/
theorem step_closing_lock (h : step s t ch = some (s', ts)) (ht : t.locks = 0) :
    s'.closing = s.closing := by
  revert h ht
  fun_cases step s t ch <;> first | exact of_none | apply of_some
  all_goals (intro ht; first | rfl | simp [Thread.locks] at ht)

/-- Only an admission raises `active`. -/
theorem step_active_le (h : step s t ch = some (s', ts)) (ht : t.admitting = false) :
    s'.active ≤ s.active := by
  revert h ht
  fun_cases step s t ch <;> first | exact of_none | apply of_some
  all_goals (intro ht; simp_all [Thread.admitting])

/-- Only the owner of a live operation raises `pending`. -/
theorem step_pending_le (h : step s t ch = some (s', ts)) (ht : t.operations = 0) :
    s'.finished.pending ≤ s.finished.pending := by
  revert h ht
  fun_cases step s t ch <;> first | exact of_none | apply of_some
  all_goals (intro ht; simp_all [Thread.operations, FinishedContext.finishOne_pending])
  all_goals exact (FinishedContext.take_pending ‹_›).le

theorem admitting_locks (h : t.admitting = true) : t.locks = 1 := by
  cases t <;> first | rfl | cases h

theorem pastClosing_of_pastActive (h : t.pastActive = true) : t.pastClosing = true := by
  cases t with
  | nativeShutdown r => cases r <;> first | rfl | cases h
  | _ => first | rfl | cases h

/-- `pending` is read as zero behind `active`, or when no reference is left. -/
theorem pastPending_cases (h : t.pastPending = true) :
    t.pastActive = true ∨ t.orphaned = true := by
  cases t with
  | nativeShutdown r => cases r <;> first | exact .inl rfl | exact .inr rfl
  | takeLock | takeNative | takeUnlock => exact .inl rfl
  | _ => cases h

theorem operations_le_arcs (t : Thread κ) : t.operations ≤ t.arcs := by
  cases t <;> exact Nat.le_of_ble_eq_true rfl

/-- What a thread relies on survives the steps of the others: the mutex keeps
admission and `closing` apart, the two counters and the strong count do the rest. -/
theorem sound_other (h : step s t ch = some (s', ts)) (ht : Sound s t) (hu : Sound s u)
    (hlocks : t.locks + u.locks ≤ s.nativeLock.toNat) (hops : t.operations ≤ s.active)
    (harcs : t.arcs ≤ s.arcs) : Sound s' u where
  admitting := by
    intro hadm
    have hlock := admitting_locks hadm
    have hle := Bool.toNat_le s.nativeLock
    rw [step_closing_lock h (by omega)]
    exact hu.admitting hadm
  closing := fun hp => step_closing_mono h (hu.closing hp)
  active := by
    intro hp
    have hclosed := hu.closing (pastClosing_of_pastActive hp)
    have hadm : t.admitting = false := by
      by_contra hadm
      have := ht.admitting (by simpa using hadm)
      rw [hclosed] at this
      contradiction
    have := step_active_le h hadm
    rw [hu.active hp] at this
    omega
  pending := by
    intro hp
    have hquiet : t.operations = 0 := by
      rcases pastPending_cases hp with hact | horphan
      · have := hu.active hact
        omega
      · have := hu.arcs horphan
        have hle := operations_le_arcs t
        omega
    have := step_pending_le h hquiet
    rw [hu.pending hp] at this
    omega
  arcs := by
    intro hp
    have hzero := hu.arcs hp
    rw [step_arcs_of_zero h (by omega)]
    exact hzero

/-- Only an admission appends `admitted`, and it runs while `closing` is unset. -/
theorem step_trace (h : step s t ch = some (s', ts)) :
    s'.trace = s.trace ∨ ∃ e, s'.trace = s.trace ++ [e] ∧
      (e = .admitted → t.admitting) ∧ (e = .closing → s'.closing = true) := by
  revert h
  fun_cases step s t ch <;> first | exact of_none | (apply of_some; simp [Thread.admitting])

/-! ## The invariant -/

/-- What holds in every configuration of the engine. -/
structure AdmissionInv (c : Config Shared (Thread κ)) : Prop where
  /-- The `native` mutex excludes. -/
  locks : c.shared.nativeLock.toNat = total Thread.locks c.threads
  /-- `active` counts the live operations. -/
  operations : c.shared.active = total Thread.operations c.threads
  /-- The strong count counts the references. -/
  arcs : c.shared.arcs = total Thread.arcs c.threads
  /-- There is one engine to shut down. -/
  owns : c.shared.native.toNat + c.shared.trace.count .nativeShutdown +
    total Thread.owns c.threads ≤ 1
  /-- Every thread may rely on what its position means. -/
  sound : ∀ t ∈ c.threads, Sound c.shared t
  /-- `closing` is recorded only with the flag set. -/
  closing : Event.closing ∈ c.shared.trace → c.shared.closing = true
  /-- No admission follows a `closing`. -/
  order : Trace.Bars (· = .closing) (· = .admitted) c.shared.trace

theorem admissionInv_init : AdmissionInv (start (κ := κ)).config where
  locks := by simp [start, Listed.config, Thread.locks]
  operations := by simp [start, Listed.config, Thread.operations]
  arcs := by simp [start, Listed.config, Thread.arcs]
  owns := by simp [start, Listed.config, Thread.owns]
  sound := by
    simp [start, Listed.config, sound_iff, Thread.admitting, Thread.pastClosing,
      Thread.pastActive, Thread.pastPending, Thread.orphaned]
  closing := by simp [start, Listed.config]
  order := by simp [start, Listed.config]

variable {allowed : Policy Shared (Thread κ) (Choice κ)} {c c' : Config Shared (Thread κ)}

/-- **The admission invariant is preserved by every step.** -/
theorem admissionInv_step (hi : AdmissionInv c) (hs : Step step allowed c c') :
    AdmissionInv c' := by
  obtain ⟨_, hn⟩ := hs
  rename_i s s' t ts rest ch _
  have hlocks : t.locks ≤ s.nativeLock.toNat := by
    rw [hi.locks]
    exact le_total (Multiset.mem_cons_self t rest)
  have hops : t.operations ≤ s.active := by
    rw [hi.operations]
    exact le_total (Multiset.mem_cons_self t rest)
  have harcs : t.arcs ≤ s.arcs := by
    rw [hi.arcs]
    exact le_total (Multiset.mem_cons_self t rest)
  have hown : Sound s t := hi.sound t (Multiset.mem_cons_self t rest)
  refine ⟨?_, ?_, ?_, ?_, ?_, ?_, ?_⟩
  · exact ledger_step hi.locks (step_locks hn)
  · exact ledger_step hi.operations (step_operations hn)
  · exact ledger_step hi.arcs (step_arcs hn)
  · exact budget_step hi.owns (step_owns hn)
  · refine forall_step hi.sound (step_sound hn) ?_
    intro u hu hsu
    refine sound_other hn hown hsu ?_ hops harcs
    rw [hi.locks]
    exact add_le_total hu
  · intro hmem
    rcases step_trace hn with heq | ⟨e, heq, _, hclosing⟩
    · rw [heq] at hmem
      exact step_closing_mono hn (hi.closing hmem)
    · rw [heq, List.mem_append, List.mem_singleton] at hmem
      rcases hmem with hmem | rfl
      · exact step_closing_mono hn (hi.closing hmem)
      · exact hclosing rfl
  · rcases step_trace hn with heq | ⟨e, heq, hadm, _⟩
    · rw [heq]
      exact hi.order
    · rw [heq]
      refine hi.order.append ?_
      rintro he a ha rfl
      -- the thread that admits has read `closing` as unset under the lock
      have hopen := hown.admitting (hadm he)
      rw [hi.closing ha] at hopen
      contradiction

theorem admissionInv_reachable (h : Reachable step allowed start.config c) :
    AdmissionInv c :=
  h.invariant admissionInv_init (fun _ hi hs => admissionInv_step hi hs)

/-! ## Teardown -/

/-- **The engine is torn down once, when nothing uses it, and admission never
reopens.** Under every schedule `NativeEngine::shutdown` is started at most once;
whoever is about to start it finds no live operation and no outstanding finished
callback; and no `begin_operation` succeeds after a shutdown has set `closing`. -/
theorem native_shutdown_exclusive (h : Reachable step (fun _ _ _ => True) start.config c) :
    c.shared.trace.count .nativeShutdown ≤ 1 ∧
    (∀ r, Thread.nativeShutdown r ∈ c.threads →
      c.shared.trace.count .nativeShutdown = 0 ∧
      (∀ t ∈ c.threads, t.operations = 0) ∧ c.shared.active = 0 ∧
      c.shared.finished.pending = 0) ∧
    Trace.Bars (· = .closing) (· = .admitted) c.shared.trace := by
  have hi := admissionInv_reachable h
  have hone := hi.owns
  refine ⟨by omega, ?_, hi.order⟩
  intro r hr
  have hsound := hi.sound _ hr
  have howns : (Thread.nativeShutdown r : Thread κ).owns ≤ total Thread.owns c.threads :=
    le_total hr
  have hactive : c.shared.active = 0 := by
    cases r with
    | blocking => exact hsound.active rfl
    | dropped =>
      have hzero := hsound.arcs rfl
      have hle : total Thread.operations c.threads ≤ total Thread.arcs c.threads :=
        total_le_total (fun t => by cases t <;> simp [Thread.operations, Thread.arcs])
      rw [hi.operations]
      rw [hi.arcs] at hzero
      omega
  refine ⟨?_, ?_, hactive, hsound.pending rfl⟩
  · simp only [Thread.owns] at howns
    omega
  · rw [hi.operations] at hactive
    exact total_eq_zero.mp hactive

/-- A request is admitted, begun and left running; a shutdown waits for its
operation and for its finished callback and then takes the engine. -/
def teardown : List (Nat × Choice Unit) :=
  [(0, .beginOperation ()), (1, .go), (0, .go), (0, .go), (0, .go), (0, .go), (0, .go),
   (0, .beginRequest [(7, none)]), (0, .go), (0, .keep), (1, .go),
   (1, .shutdown), (1, .go), (0, .go), (0, .go), (0, .go), (0, .go), (0, .go), (0, .go),
   (2, .go), (0, .go), (0, .go), (0, .go), (0, .go), (0, .go), (0, .go), (0, .go),
   (2, .finished [7]), (1, .go), (1, .go), (0, .go), (0, .go), (0, .go), (0, .go), (0, .go)]

/-- Where that schedule leads, the engine is about to be shut down and idle. -/
theorem native_shutdown_exclusive_teardown :
    (Pool.run step (fun _ _ _ => true) start teardown).shared.trace = [.admitted, .closing] ∧
    (Pool.run step (fun _ _ _ => true) start teardown).shared.active = 0 ∧
    (Pool.run step (fun _ _ _ => true) start teardown).shared.finished.pending = 0 := by
  have h : Reachable step (fun _ _ _ => True) start.config
      (Pool.run step (fun _ _ _ => true) start teardown).config :=
    run_reachable (fun _ _ _ _ => trivial) teardown Reachable.start
  obtain ⟨_, hidle, _⟩ := native_shutdown_exclusive h
  have hmem : Thread.nativeShutdown .blocking ∈
      (Pool.run step (fun _ _ _ => true) start teardown).threads := by decide
  obtain ⟨_, _, hactive, hpending⟩ := hidle .blocking (Multiset.mem_coe.mpr hmem)
  exact ⟨by decide, hactive, hpending⟩

end TokioCronet.Engine
