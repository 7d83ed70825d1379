import TokioCronet.Engine.Admission

/-!
# What `Engine::shutdown` reports

The `OnceCell` makes every call that returns report the same value. That value
is meant to be the result of `NativeEngine::shutdown`, but the initialiser takes
the native engine out of its slot *before* it awaits the blocking task. If its
future is dropped there, the next initialiser finds the slot empty and reports
`Ok(())` for a shutdown that may have failed or may not have started.
-/

namespace TokioCronet.Engine

open Pool

variable {κ : Type} {s s' : Shared} {t u : Thread κ} {ch : Choice κ} {ts : List (Thread κ)}

/-- `NativeEngine::shutdown` has run to completion and returned `Ok`. -/
def Done (s : Shared) : Prop := Event.nativeDone (.ok ()) ∈ s.trace

/-- The permit of the `OnceCell`. -/
def Thread.initialises : Thread κ → Nat
  | .waitActive | .armActive | .recheckActive _ | .parkActive _ | .waitIdle | .checkIdle _
  | .parkIdle _ | .takeLock | .takeNative | .takeUnlock _ | .joinNative | .setResult _
  | .abandonInit => 1
  | _ => 0

/-- The initialiser has not looked into the slot, or has given up. -/
def Thread.beforeTake : Thread κ → Bool
  | .waitActive | .armActive | .recheckActive _ | .parkActive _ | .waitIdle | .checkIdle _
  | .parkIdle _ | .takeLock | .takeNative | .abandonInit => true
  | _ => false

/-- The initialiser is about to report success. -/
def Thread.reportsOk : Thread κ → Bool
  | .takeUnlock false | .setResult (.ok ()) => true
  | _ => false

theorem beforeTake_initialises (h : t.beforeTake = true) : t.initialises = 1 ∧ t.arcs = 1 := by
  cases t <;> first | exact ⟨rfl, rfl⟩ | cases h

/-- A future that awaits the blocking task is dropped only once that task has
left an `Ok`. -/
def KeepsJoin (κ : Type) : Policy Shared (Thread κ) (Choice κ) := fun c t ch =>
  t = .joinNative → ch = .drop → c.shared.joined = some (.ok ())

theorem step_initialises (h : step s t ch = some (s', ts))
    (hle : t.initialises ≤ s.initializing.toNat) :
    s'.initializing.toNat + t.initialises =
      s.initializing.toNat + (ts.map Thread.initialises).sum := by
  have hbound := Bool.toNat_le s.initializing
  revert h hle
  fun_cases step s t ch <;> first | exact of_none | apply of_some
  all_goals
    intro hle
    simp_all [Thread.initialises]
  all_goals first | omega | (split <;> simp [Thread.initialises])

theorem step_trace_grows (h : step s t ch = some (s', ts)) : s.trace <+: s'.trace := by
  revert h
  fun_cases step s t ch <;> first | exact of_none | (apply of_some; simp)

theorem Done.mono (h : step s t ch = some (s', ts)) (hd : Done s) : Done s' :=
  (step_trace_grows h).subset hd

/-- What the slot, the cell and the `JoinHandle` say together. -/
@[mk_iff]
structure CellInv (s : Shared) : Prop where
  /-- A filled cell has no initialiser. -/
  empty : s.initializing = true → s.shutdownResult = none
  /-- The blocking task leaves `Ok` only when it is done. -/
  joined : s.joined = some (.ok ()) → Done s
  /-- The cell says `Ok` only when it is done. -/
  result : s.shutdownResult = some (.ok ()) → Done s
  /-- A call returns what the cell says. -/
  returned : ∀ r, .returned r ∈ s.trace → s.shutdownResult = some r
  /-- A slot found empty by the next initialiser was emptied by a completed one. -/
  taken : s.native = false → s.initializing = false → s.shutdownResult = none →
    s.arcs ≠ 0 → Done s

/-- What the initialiser may rely on. -/
@[mk_iff]
structure Settled (s : Shared) (t : Thread κ) : Prop where
  /-- Before the slot is read the shutdown knows of the native one. -/
  beforeTake : t.beforeTake → s.native = false → Done s
  /-- Who reports `Ok` knows of it too. -/
  reportsOk : t.reportsOk → Done s

/-- What a step does to the slot, the cell and the `JoinHandle`. -/
inductive CellStep (s : Shared) (t : Thread κ) : Shared → Prop
  | quiet {s' : Shared} : s'.initializing = s.initializing →
      s'.shutdownResult = s.shutdownResult → s'.joined = s.joined → s'.native = s.native →
      (s.arcs = 0 → t.arcs ≤ s.arcs → s'.arcs = 0) →
      (∀ r, .returned r ∈ s'.trace → .returned r ∈ s.trace ∨ s.shutdownResult = some r) →
      CellStep s t s'
  | claims : s.shutdownResult = none → CellStep s t { s with initializing := true }
  | takes : t.initialises = 1 → CellStep s t { s with native := false }
  | drops : t.orphaned = true → CellStep s t { s with native := false }
  | sets {result : Result Unit} : t = .setResult result →
      CellStep s t { s with shutdownResult := some result, initializing := false }
  | abandons : t = .abandonInit → CellStep s t { s with initializing := false }
  | leaves {result : Result Unit} {l : List Event} :
      (result = .ok () → .nativeDone (.ok ()) ∈ l) → (∀ r, .returned r ∉ l) →
      CellStep s t { s with joined := some result, trace := s.trace ++ l }

theorem step_cell (h : step s t ch = some (s', ts)) : CellStep s t s' := by
  revert h
  fun_cases step s t ch <;> first | exact of_none | apply of_some
  all_goals first
    | refine .quiet rfl rfl rfl rfl ?_ ?_
    | exact .claims ‹_›
    | exact .takes rfl
    | exact .drops rfl
    | exact .sets rfl
    | exact .abandons rfl
    | exact .leaves (fun hok => hok ▸ List.mem_singleton_self _) (by simp)
    | exact (List.append_nil s.trace) ▸ .leaves (l := []) (fun hok => by cases hok)
        (fun _ => List.not_mem_nil)
  all_goals first
    | exact fun hzero _ => hzero
    | exact fun r hr => .inl hr
    | (intro hzero hle
       rw [hzero] at hle
       cases hle)
    | (intro r hr
       simpa using hr)
    | (intro r hr
       simp_all [eq_comm])

theorem step_cellInv (h : step s t ch = some (s', ts)) (hc : CellInv s) (hq : Settled s t)
    (ht : Sound s t) (hinit : t.initialises ≤ s.initializing.toNat)
    (harcs : t.arcs ≤ s.arcs) : CellInv s' := by
  have hmono : Done s → Done s' := Done.mono h
  cases step_cell h with
  | quiet hi hr hj hn harcs' htrace =>
    refine ⟨?_, ?_, ?_, ?_, ?_⟩
    · rw [hi, hr]
      exact hc.empty
    · rw [hj]
      exact fun hok => hmono (hc.joined hok)
    · rw [hr]
      exact fun hok => hmono (hc.result hok)
    · intro r hmem
      rw [hr]
      rcases htrace r hmem with hmem | hsome
      · exact hc.returned r hmem
      · exact hsome
    · rw [hn, hi, hr]
      intro hnative hidle hnone hne
      exact hmono (hc.taken hnative hidle hnone fun hzero => hne (harcs' hzero harcs))
  | claims hnone =>
    exact ⟨fun _ => hnone, hc.joined, hc.result, hc.returned, nofun⟩
  | takes hone =>
    -- the initialiser keeps the permit
    refine ⟨hc.empty, hc.joined, hc.result, hc.returned, ?_⟩
    intro _ hidle
    have hidle' : s.initializing = false := hidle
    rw [hone, hidle'] at hinit
    cases hinit
  | drops horphan =>
    refine ⟨hc.empty, hc.joined, hc.result, hc.returned, ?_⟩
    intro _ _ _ hne
    exact absurd (ht.arcs horphan) hne
  | @sets result hset =>
    subst hset
    have hbusy : s.initializing = true := by
      cases hinitializing : s.initializing with
      | true => rfl
      | false =>
        rw [hinitializing] at hinit
        cases hinit
    refine ⟨nofun, hc.joined, ?_, ?_, nofun⟩
    · intro hok
      cases hok
      exact hq.reportsOk rfl
    · intro r hmem
      have hsome := hc.returned r hmem
      rw [hc.empty hbusy] at hsome
      cases hsome
  | abandons habandon =>
    subst habandon
    exact ⟨nofun, hc.joined, hc.result, hc.returned, fun hnative _ _ _ => hq.beforeTake rfl hnative⟩
  | @leaves result l hok hnone =>
    refine ⟨hc.empty, ?_, fun hres => hmono (hc.result hres), ?_,
      fun hnative hidle hres hne => hmono (hc.taken hnative hidle hres hne)⟩
    · intro hjoined
      exact List.mem_append_right _ (hok (Option.some.inj hjoined))
    · intro r hmem
      rcases List.mem_append.mp hmem with hmem | hmem
      · exact hc.returned r hmem
      · exact absurd hmem (hnone r)

/-- Nobody in the list relies on anything. -/
theorem settled_none {l : List (Thread κ)}
    (h : (l.all fun u => !(u.beforeTake || u.reportsOk)) = true) : ∀ u ∈ l, Settled s u := by
  intro u hu
  have hu' := List.all_eq_true.mp h u hu
  rw [Bool.not_eq_true', Bool.or_eq_false_iff] at hu'
  refine ⟨fun hb => ?_, fun hr => ?_⟩
  · rw [hu'.1] at hb
    cases hb
  · rw [hu'.2] at hr
    cases hr

/-- The initialiser goes on and leaves the slot as it is. -/
theorem settled_along (hq : Settled s t) (ht : t.beforeTake = true) (hn : s'.native = s.native)
    (htrace : s'.trace = s.trace) (hu : u.reportsOk = false) : ∀ v ∈ [u], Settled s' v := by
  intro v hv
  obtain rfl := List.mem_singleton.mp hv
  refine ⟨fun _ hnative => ?_, fun hr => ?_⟩
  · rw [Done, htrace]
    exact hq.beforeTake ht (hn ▸ hnative)
  · rw [hu] at hr
    cases hr

theorem settled_one (hb : u.beforeTake = true → s.native = false → Done s)
    (hr : u.reportsOk = true → Done s) : ∀ v ∈ [u], Settled s v :=
  List.forall_mem_singleton.mpr ⟨hb, hr⟩

theorem step_settled (h : step s t ch = some (s', ts)) (hc : CellInv s) (hq : Settled s t)
    (hkeep : t = .joinNative → ch = .drop → s.joined = some (.ok ())) (harcs : t.arcs ≤ s.arcs) :
    ∀ u ∈ ts, Settled s' u := by
  revert h hq hkeep harcs
  fun_cases step s t ch <;> first | exact of_none | (apply of_some; intro hq hkeep harcs)
  all_goals first
    | exact settled_none rfl
    | exact settled_along hq rfl rfl rfl rfl
    | (split <;> exact settled_none rfl)
    | (split <;> exact settled_along hq rfl rfl rfl rfl)
    | skip
  case case37 hnone hidle =>
    -- the cell is empty and has no initialiser: one that was has given up
    refine settled_one (fun _ hnative => ?_) Bool.noConfusion
    have hpos : 1 ≤ s.arcs := harcs
    exact hc.taken hnative (Bool.eq_false_iff.mpr hidle) hnone (by omega)
  case case52 =>
    refine settled_one Bool.noConfusion fun hr => ?_
    cases hnative : s.native with
    | false => exact hq.beforeTake rfl hnative
    | true =>
      rw [hnative] at hr
      cases hr
  case case54 => exact settled_one Bool.noConfusion fun _ => hq.reportsOk rfl
  case case55 result hjoined =>
    refine settled_one Bool.noConfusion fun hr => ?_
    cases result with
    | ok => exact hc.joined hjoined
    | error => cases hr
  case case57 => exact settled_one (fun _ _ => hc.joined (hkeep rfl rfl)) Bool.noConfusion

/-- Only the initialiser and the last `Drop` empty the slot. -/
theorem step_native (h : step s t ch = some (s', ts)) (hinit : t.initialises = 0)
    (horphan : t.orphaned = false) : s'.native = s.native := by
  revert h hinit horphan
  fun_cases step s t ch <;> first | exact of_none | apply of_some
  all_goals
    intro hinit horphan
    simp_all [Thread.initialises, Thread.orphaned]

/-- A call returns what the cell says. -/
theorem step_returned (h : step s t ch = some (s', ts)) :
    s'.trace = s.trace ∨ ∃ e, s'.trace = s.trace ++ [e] ∧
      ∀ r, e = .returned r → s.shutdownResult = some r := by
  revert h
  fun_cases step s t ch <;> first | exact of_none | (apply of_some; simp_all)

/-! ## The invariant -/

/-- What holds in every configuration if no future that awaits the blocking task
is dropped too early. -/
structure ShutdownInv (c : Config Shared (Thread κ)) : Prop where
  /-- Operations are admitted as they may be. -/
  admission : AdmissionInv c
  /-- There is one initialiser. -/
  permit : c.shared.initializing.toNat = total Thread.initialises c.threads
  /-- The cell has what the native shutdown left. -/
  cell : CellInv c.shared
  /-- The threads know of the native shutdown. -/
  settled : ∀ t ∈ c.threads, Settled c.shared t
  /-- No call reports success before the native shutdown has. -/
  order : Trace.Needs (· = .returned (.ok ())) (· = .nativeDone (.ok ())) c.shared.trace

variable {c c' : Config Shared (Thread κ)}

theorem shutdownInv_init : ShutdownInv (start (κ := κ)).config where
  admission := admissionInv_init
  permit := by simp [start, Listed.config, Thread.initialises]
  cell := by simp [start, Listed.config, cellInv_iff]
  settled := by
    simp [start, Listed.config, settled_iff, Thread.beforeTake, Thread.reportsOk]
  order := by simp [start, Listed.config]

/-- **The shutdown invariant is preserved by every step that keeps the join.** -/
theorem shutdownInv_step (hi : ShutdownInv c) (hs : Step step (KeepsJoin κ) c c') :
    ShutdownInv c' := by
  have hadm := admissionInv_step hi.admission hs
  obtain ⟨hkeep, hn⟩ := hs
  rename_i s s' t ts rest ch
  have hmem : t ∈ t ::ₘ rest := Multiset.mem_cons_self t rest
  have hinit : t.initialises ≤ s.initializing.toNat := by
    rw [hi.permit]
    exact le_total hmem
  have harcs : t.arcs ≤ s.arcs := by
    rw [hi.admission.arcs]
    exact le_total hmem
  have hsound := hi.admission.sound t hmem
  have hown := hi.settled t hmem
  refine ⟨hadm, ?_, ?_, ?_, ?_⟩
  · exact ledger_step hi.permit (step_initialises hn)
  · exact step_cellInv hn hi.cell hown hsound hinit harcs
  · refine forall_step hi.settled (fun _ => step_settled hn hi.cell hown hkeep harcs) ?_
    intro u hu hsu
    refine ⟨?_, fun hr => (hsu.reportsOk hr).mono hn⟩
    intro hb hnative
    -- nobody else empties the slot while `u` is the initialiser and holds a reference
    have hpermit : t.initialises + u.initialises ≤ 1 := by
      have hle := Bool.toNat_le s.initializing
      have hadd : t.initialises + u.initialises ≤ total Thread.initialises (t ::ₘ rest) :=
        add_le_total hu
      rw [← hi.permit] at hadd
      exact hadd.trans hle
    have hone : u.initialises = 1 ∧ u.arcs = 1 := beforeTake_initialises hb
    have hlive : u.arcs ≤ s.arcs := by
      rw [hi.admission.arcs]
      exact le_total (Multiset.mem_cons_of_mem hu)
    have horphan : t.orphaned = false := by
      by_contra ho
      have hzero : s.arcs = 0 := hsound.arcs (by simpa using ho)
      omega
    rw [step_native hn (by omega) horphan] at hnative
    exact (hsu.beforeTake hb hnative).mono hn
  · rcases step_returned hn with heq | ⟨e, heq, hret⟩
    · rw [heq]
      exact hi.order
    · rw [heq]
      refine hi.order.append ?_
      intro he
      exact ⟨_, hi.cell.result (hret _ he), rfl⟩

theorem shutdownInv_reachable (h : Reachable step (KeepsJoin κ) start.config c) :
    ShutdownInv c :=
  h.invariant shutdownInv_init (fun _ hi hs => shutdownInv_step hi hs)

/-! ## The report -/

/-- **A shutdown reports what happened to the engine.** As long as no future is
dropped while the blocking task it awaits has not left an `Ok`, every
`Engine::shutdown` that returns `Ok` does so after `NativeEngine::shutdown` has
completed with `Ok`, and all calls that return agree. -/
theorem shutdown_reports_native_result (h : Reachable step (KeepsJoin κ) start.config c) :
    Trace.Needs (· = .returned (.ok ())) (· = .nativeDone (.ok ())) c.shared.trace ∧
    ∀ r r', .returned r ∈ c.shared.trace → .returned r' ∈ c.shared.trace → r = r' := by
  have hi := shutdownInv_reachable h
  refine ⟨hi.order, ?_⟩
  intro r r' hr hr'
  have hsome := hi.cell.returned r hr
  rw [hi.cell.returned r' hr'] at hsome
  exact (Option.some.inj hsome).symm

/-- `KeepsJoin` as a test. -/
def keepsJoin (c : Listed Shared (Thread Unit)) (t : Thread Unit) (ch : Choice Unit) : Bool :=
  !(t = .joinNative && ch = .drop) || c.shared.joined = some (.ok ())

theorem keepsJoin_sound (c : Listed Shared (Thread Unit)) (t : Thread Unit) (ch : Choice Unit)
    (h : keepsJoin c t ch = true) : KeepsJoin Unit c.config t ch := by
  intro ht hch
  simpa [keepsJoin, ht, hch, Listed.config] using h

/-- A shutdown call on an idle engine, up to the blocking task. -/
def shutdownCall : List (Nat × Choice Unit) :=
  [(0, .shutdown), (1, .go), (0, .go), (0, .go), (0, .go), (0, .go), (0, .go), (0, .go), (0, .go),
   (0, .go), (0, .go)]

/-- A second call after the first future was dropped: it finds the slot empty. -/
def secondCall (handle : Nat) : List (Nat × Choice Unit) :=
  [(0, .drop), (0, .go), (0, .go), (handle, .shutdown), (1, .go), (0, .go), (0, .go), (0, .go),
   (0, .go), (0, .go), (0, .go), (0, .go), (0, .go), (0, .go), (0, .go), (0, .go)]

/-- The first future is dropped once its blocking task has succeeded. -/
def droppedLate : List (Nat × Choice Unit) :=
  shutdownCall ++ [(1, .go), (0, .result none), (0, .go), (0, .go)] ++ secondCall 0

/-- The first future is dropped before its blocking task has started. -/
def droppedEarly : List (Nat × Choice Unit) := shutdownCall ++ secondCall 1

theorem shutdown_reports_native_result_droppedLate :
    (Pool.run step keepsJoin start droppedLate).shared.trace =
      [.closing, .nativeShutdown, .destroyed, .nativeDone (.ok ()), .closing,
        .returned (.ok ())] ∧
    Trace.Needs (· = .returned (.ok ())) (· = .nativeDone (.ok ()))
      (Pool.run step keepsJoin start droppedLate).config.shared.trace :=
  ⟨by decide, (shutdown_reports_native_result
    (run_reachable keepsJoin_sound droppedLate Reachable.start)).1⟩

/-- **The second call reports `Ok` for an engine nobody has touched.** -/
theorem shutdown_ok_before_native :
    ∃ c, Reachable step (fun _ _ _ => True) (start (κ := Unit)).config c ∧
      ¬ Trace.Needs (· = .returned (.ok ())) (· = .nativeDone (.ok ())) c.shared.trace := by
  refine ⟨(Pool.run step (fun _ _ _ => true) start droppedEarly).config,
    run_reachable (fun _ _ _ _ => trivial) droppedEarly Reachable.start, ?_⟩
  have htrace : (Pool.run step (fun _ _ _ => true) start droppedEarly).config.shared.trace =
      [.closing, .closing] ++ Event.returned (.ok ()) :: [] := by decide
  intro hneeds
  obtain ⟨e, he, rfl⟩ := hneeds _ _ _ htrace rfl
  simp at he

end TokioCronet.Engine
