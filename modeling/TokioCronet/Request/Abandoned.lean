import TokioCronet.Request.Report
import TokioCronet.Request.Startup

/-!
# Letting go of a request

The caller of a request holds the call of `start_request`, then a `PendingRequest`, then a
`ResponseBody`, and may drop what it holds at any time. The duty to cancel goes along:
`start_request` reads `cancel_requested` once the start has returned, each of the two drops
cancels a request that is not done, and a header future that was answered with an error
belongs to a request that is done.
-/

namespace TokioCronet.Request

open Pool

variable {cfg : Settings} {s s' : Shared} {t u : Thread} {ch : Choice} {ts : List Thread}

/-! ## Who holds the request -/

/-- Which gated operations are the caller's own. -/
def GatedOp.caller : GatedOp → Nat
  | .cancel .registering | .cancel .started | .cancel (.consumer _) => 1
  | _ => 0

/-- The call of `start_request`, and the future, the response or the body that comes of it. -/
def Thread.caller : Thread → Nat
  | .start (.returned _) | .execute (.returned _) => 0
  | .start _ | .execute _ => 1
  | .control (.store who) => (GatedOp.cancel who).caller
  | .control (.lock op) | .control (.raw op) | .control (.done op) | .control (.call op)
  | .control (.unlock op _) => op.caller
  | .cleanup (.drop why) | .cleanup (.gate why) | .cleanup (.raw why) | .cleanup (.destroy why)
  | .cleanup (.unlock why) | .cleanup (.buffer why) | .cleanup (.context why) => why.starter
  | _ => 0

/-- Nothing is left running. -/
def Left (s : Shared) : Prop := .started ∈ s.trace → Answered s.control.done s.trace

/-- The cancel of a drop comes after the start. -/
def GatedOp.Duty (s : Shared) : GatedOp → Prop
  | .cancel (.consumer _) => Begun s
  | _ => True

/-- What the drop of a future or of a body may rely on. -/
def Duty (s : Shared) : Thread → Prop
  | .execute .headers | .execute (.body _ _) | .execute (.finished _ _) | .execute (.drop _) =>
    Begun s
  | .control (.store who) => (GatedOp.cancel who).Duty s
  | .control (.lock op) | .control (.raw op) | .control (.done op) | .control (.call op) =>
    op.Duty s
  | .control (.unlock (.cancel (.consumer _)) _) | .execute (.closeBody _) =>
    Answered s.control.done s.trace
  | _ => True

theorem after_duty {op : GatedOp} {e : Option Error} (h : Duty s (.control (.unlock op e))) :
    ∀ u ∈ op.after e, Duty s u := by
  revert h
  fun_cases GatedOp.after op e <;> intro h u hu <;>
    simp only [List.not_mem_nil, List.mem_singleton] at hu <;> subst hu <;> exact h

theorem leave_duty (site : Site) : ∀ u ∈ site.leave, Duty s u := by
  intro u hu
  cases site <;> rw [Site.leave, List.mem_singleton] at hu <;> subst hu <;> trivial

theorem Begun.mono (hf : Frame s t s') (h : Begun s) : Begun s' := by
  refine ⟨hf.trace.subset h.1, ?_⟩
  rcases h.2 with hread | hanswered
  · exact .inl (hf.trace.subset hread)
  · exact .inr (hanswered.mono hf.done hf.trace)

theorem GatedOp.Duty.mono {op : GatedOp} (hf : Frame s t s') (h : op.Duty s) : op.Duty s' := by
  cases op with
  | cancel who => cases who <;> first | trivial | exact Begun.mono hf h
  | _ => trivial

/-- Nobody takes away what a drop relies on. -/
theorem Duty.mono (hf : Frame s t s') (h : Duty s u) : Duty s' u := by
  cases u with
  | control p =>
    cases p with
    | statusLoad => trivial
    | store who => exact GatedOp.Duty.mono hf h
    | lock op | raw op | done op | call op => exact GatedOp.Duty.mono hf h
    | unlock op e =>
      cases op with
      | cancel who => cases who <;> first | trivial | exact Answered.mono hf.done hf.trace h
      | _ => trivial
  | execute p =>
    cases p with
    | headers | body | finished | drop => exact Begun.mono hf h
    | closeBody => exact Answered.mono hf.done hf.trace h
    | returned => trivial
  | _ => trivial

/-! ## One step -/

/-- The drop finds the request gone only when it is done. -/
theorem controlStep_duty {p : Control} (h : controlStep s p ch = some (s', ts))
    (ht : Duty s (.control p)) (hr : Readings s) : ∀ u ∈ ts, Duty s' u := by
  revert h ht
  fun_cases controlStep s p ch <;> first | exact of_none | (apply of_some; intro ht)
  case case8 op hraw =>
    refine List.forall_mem_singleton.mpr ?_
    cases op with
    | cancel who =>
      cases who with
      | consumer result =>
        rcases ht.2 with hread | hanswered
        · exact .inl (hr.cleared (by simpa using hraw) fun hunread => hunread false hread)
        · exact hanswered
      | _ => trivial
    | _ => trivial
  case case9 op hdone =>
    refine List.forall_mem_singleton.mpr ?_
    cases op with
    | cancel who => cases who <;> first | trivial | exact .inl hdone
    | _ => trivial
  case case11 who =>
    refine List.forall_mem_singleton.mpr ?_
    cases who with
    | consumer result => exact .inr (Trace.follows_of_mem ht.1 rfl rfl)
    | _ => trivial
  case case15 op e => exact after_duty ht
  all_goals first
    | exact List.forall_mem_nil _
    | exact List.forall_mem_singleton.mpr trivial
    | exact List.forall_mem_singleton.mpr ht

/-- A header future that was answered with an error is one of a request that is done. -/
def HeadersDone (s : Shared) : Prop :=
  ∀ e, s.context.headers = some (.error e) → s.control.done = true

theorem startStep_duty {p : Start} (h : startStep s p ch = some (s', ts)) (ht : p.Stands s) :
    ∀ u ∈ ts, Duty s' u := by
  revert h ht
  fun_cases startStep s p ch <;> first | exact of_none | (apply of_some; intro ht)
  -- the caller gets its `PendingRequest`
  case case22 =>
    have hbegun : Begun { s with context.arcs := s.context.arcs + 1 } := ht
    simpa [Duty] using hbegun
  all_goals simp [Duty, GatedOp.Duty, refuse]

theorem executeStep_duty {p : Execute} (h : executeStep s p ch = some (s', ts))
    (ht : Duty s (.execute p)) (hh : HeadersDone s) : ∀ u ∈ ts, Duty s' u := by
  revert h ht
  fun_cases executeStep s p ch <;> first | exact of_none | (apply of_some; intro ht)
  case case2 e herror => exact List.forall_mem_singleton.mpr (.inl (hh e herror))
  case case15 result hdone => exact List.forall_mem_singleton.mpr (.inl hdone)
  all_goals first
    | exact List.forall_mem_nil _
    | exact List.forall_mem_singleton.mpr trivial
    | exact List.forall_mem_singleton.mpr ht

theorem step_duty (h : step cfg s t ch = some (s', ts)) (ht : Duty s t) (hstands : Stands s t)
    (hr : Readings s) (hh : HeadersDone s) : ∀ u ∈ ts, Duty s' u := by
  revert h
  cases t <;> simp only [step]
  case outside who =>
    fun_cases outsideStep s who ch <;> first | exact of_none | apply of_some
    all_goals first | exact List.forall_mem_singleton.mpr trivial | simp [Duty, GatedOp.Duty]
  case start p => exact fun h => startStep_duty h hstands
  case shutdown p =>
    fun_cases shutdownStep s p ch <;> first | exact of_none | apply of_some
    all_goals exact List.forall_mem_singleton.mpr trivial
  case control p => exact fun h => controlStep_duty h ht hr
  case runnable stage r =>
    fun_cases runnableStep s stage r ch <;> first | exact of_none | (apply of_some; cases r)
    all_goals first
      | exact List.forall_mem_singleton.mpr trivial
      | simp [Duty]
  case callback p =>
    fun_cases callbackStep cfg s p ch <;> first | exact of_none | apply of_some
    all_goals first | exact List.forall_mem_singleton.mpr trivial | simp [Duty, GatedOp.Duty]
  case read p =>
    fun_cases readStep s p ch <;> first | exact of_none | apply of_some
    all_goals first
      | exact leave_duty _
      | simp [Duty]
  case terminal p =>
    fun_cases terminalStep s p ch <;> first | exact of_none | apply of_some
    all_goals first | exact List.forall_mem_singleton.mpr trivial | simp [Duty]
  case task p =>
    fun_cases taskStep cfg s p ch <;> first | exact of_none | apply of_some
    all_goals first | exact List.forall_mem_singleton.mpr trivial | simp [Duty, GatedOp.Duty]
  case upload p =>
    fun_cases uploadStep cfg s p ch <;> first | exact of_none | apply of_some
    all_goals first | exact List.forall_mem_singleton.mpr trivial | simp [Duty]
  case cleanup p =>
    fun_cases cleanupStep s p ch <;> first | exact of_none | apply of_some
    all_goals first
      | exact List.forall_mem_singleton.mpr trivial
      | simp [Duty, GatedOp.Duty, refuse]
  case execute p => exact fun h => executeStep_duty h ht hh

theorem step_headersDone (h : step cfg s t ch = some (s', ts)) (hsound : Sound s t)
    (hh : HeadersDone s) : HeadersDone s' := by
  intro e he
  refine (step_frame h).done ?_
  cases step_telling h with
  | quiet _ _ hheaders => exact hh e (hheaders ▸ he)
  | recorded _ _ _ hheaders => exact hh e (hheaders ▸ he)
  | consumed _ _ _ hheaders => exact hh e (hheaders ▸ he)
  | response info _ _ _ hheaders =>
    rcases hheaders with ⟨-, hok⟩ | ⟨-, hheaders⟩
    · rw [hok] at he
      cases he
    · exact hh e (hheaders ▸ he)
  | terminal error hthread _ _ _ hheaders =>
    subst hthread
    exact hsound.2

/-- The caller is gone only from a request that was not started, is done, or was cancelled
after its start. -/
theorem step_leaves (h : step cfg s t ch = some (s', ts)) (ht : t.caller ≠ 0)
    (hts : ∀ u ∈ ts, u.caller = 0) (hduty : Duty s t) (hstands : Stands s t) : Left s' := by
  have hkept : ∀ u ∈ ts, u.caller ≠ t.caller := by
    intro u hu heq
    exact ht (heq.symm.trans (hts u hu))
  clear hts
  revert h hduty hstands hkept
  cases t <;> simp only [step]
  case start p =>
    fun_cases startStep s p ch <;> first | exact of_none | apply of_some
    all_goals
      intro hduty hstands hkept
      first
        | exact fun hstarted => absurd hstarted hstands.1.2
        | exact (hkept _ (List.mem_singleton_self _) rfl).elim
        | exact (hkept (.execute .headers) (by simp) rfl).elim
  case control p =>
    fun_cases controlStep s p ch <;> first | exact of_none | apply of_some
    all_goals intro hduty hstands hkept
    case case15 op e =>
      revert hkept ht
      fun_cases GatedOp.after op e <;> intro ht hkept <;> first
        | exact (ht rfl).elim
        | exact (hkept _ (List.mem_singleton_self _) rfl).elim
    all_goals first
      | exact (ht rfl).elim
      | exact (hkept _ (List.mem_singleton_self _) rfl).elim
  case cleanup p =>
    fun_cases cleanupStep s p ch <;> first | exact of_none | apply of_some
    all_goals intro hduty hstands hkept
    case case23 e =>
      intro hstarted
      rw [Shared.releaseArc_trace] at hstarted
      exact absurd hstarted hstands.1.1
    all_goals first
      | exact (ht rfl).elim
      | exact (hkept _ (List.mem_singleton_self _) rfl).elim
  case execute p =>
    fun_cases executeStep s p ch <;> first | exact of_none | apply of_some
    all_goals
      intro hduty hstands hkept
      first
        | exact fun _ => hduty
        | exact (hkept _ (List.mem_singleton_self _) rfl).elim
  all_goals exact (ht rfl).elim

/-! ## The invariant -/

variable {allowed : Policy Shared Thread Choice} {c c' : Config Shared Thread}

/-- What is known while a request is let go of. -/
structure AbandonInv (c : Config Shared Thread) : Prop where
  /-- Every thread keeps to its duty. -/
  duty : ∀ t ∈ c.threads, Duty c.shared t
  /-- The headers come with `done`, or before it. -/
  headers : HeadersDone c.shared
  /-- Without a caller the request was left as it should be. -/
  left : total Thread.caller c.threads = 0 → Left c.shared

theorem abandonInv_init : AbandonInv start.config where
  duty := by simp [start, Listed.config, Duty]
  headers := by
    intro e he
    cases he
  left := by simp [start, Listed.config, Thread.caller]

theorem abandonInv_step (hl : LifetimeInv c) (hs : StartupInv c) (hi : AbandonInv c)
    (hstep : Step (step cfg) allowed c c') : AbandonInv c' := by
  obtain ⟨_, hn⟩ := hstep
  rename_i s s' t ts rest ch _
  have hmem : t ∈ t ::ₘ rest := Multiset.mem_cons_self t rest
  have hstands := hs.stands t hmem
  have hduty := hi.duty t hmem
  have hframe := step_frame hn
  refine ⟨?_, step_headersDone hn (hl.sound t hmem) hi.headers, ?_⟩
  · exact forall_step hi.duty (fun _ => step_duty hn hduty hstands hs.readings hi.headers)
      (fun u _ hu => hu.mono hframe)
  · intro hzero
    have hnone := total_eq_zero.mp hzero
    by_cases ht : t.caller = 0
    · have hbefore : total Thread.caller (t ::ₘ rest) = 0 := by
        rw [total_add] at hzero
        rw [total_cons]
        omega
      intro hstarted
      refine (hi.left hbefore ?_).mono hframe.done hframe.trace
      rcases step_event hn with heq | ⟨e, heq, hcause⟩
      · rw [← heq]
        exact hstarted
      · rw [heq, List.mem_append, List.mem_singleton] at hstarted
        rcases hstarted with hstarted | rfl
        · exact hstarted
        · cases hcause
          cases ht
    · refine step_leaves hn ht ?_ hduty hstands
      intro u hu
      exact hnone u (Multiset.mem_add.mpr (.inl (Multiset.mem_coe.mpr hu)))

theorem abandonInv_reachable (h : Reachable (step cfg) allowed start.config c) :
    AbandonInv c := by
  induction h with
  | refl => exact abandonInv_init
  | tail hr hs ih =>
    exact abandonInv_step (lifetimeInv_reachable hr) (startupInv_reachable hr) ih hs

/-- **An abandoned request is not left running.** -/
theorem abandoned_answered (h : Reachable (step cfg) allowed start.config c)
    (hleft : ∀ t ∈ c.threads, t.caller = 0) : Left c.shared :=
  (abandonInv_reachable h).left (total_eq_zero.mpr hleft)

/-! ## The drop goes on -/

/-- The drop of what the caller holds has begun. -/
def Thread.drops : Thread → Bool
  | .execute (.drop _) | .execute (.closeBody _)
  | .control (.store (.consumer _)) | .control (.lock (.cancel (.consumer _)))
  | .control (.raw (.cancel (.consumer _))) | .control (.done (.cancel (.consumer _)))
  | .control (.call (.cancel (.consumer _))) | .control (.unlock (.cancel (.consumer _)) _) =>
    true
  | _ => false

/-- Whoever has the gate can go on. -/
theorem gate_goes (h : t.gate ≠ 0) : ∃ ch, step cfg s t ch ≠ none := by
  cases t with
  | control p =>
    cases p with
    | raw op | done op =>
      refine ⟨.go, ?_⟩
      simp only [step, controlStep]
      split_ifs <;> exact Option.some_ne_none _
    | call op =>
      cases op with
      | followRedirect who => exact ⟨.result none, Option.some_ne_none _⟩
      | _ => exact ⟨.go, Option.some_ne_none _⟩
    | unlock op e => exact ⟨.go, Option.some_ne_none _⟩
    | _ => cases h rfl
  | read p =>
    cases p with
    | call site b => exact ⟨.result none, Option.some_ne_none _⟩
    | returned site b code =>
      refine ⟨.go, ?_⟩
      rcases code with _ | code
      · simp [step, readStep]
      · cases code <;> simp [step, readStep]
    | record site e => exact ⟨.go, Option.some_ne_none _⟩
    | cancel site => exact ⟨.go, Option.some_ne_none _⟩
    | unlockHeaders => cases h rfl
  | cleanup p =>
    cases p with
    | raw why | destroy why | unlock why => exact ⟨.go, Option.some_ne_none _⟩
    | _ => cases h rfl
  | _ => cases h rfl

/-- **A drop is never stuck**: it can go on, or whoever has the gate can. -/
theorem drop_goes (h : Reachable (step cfg) allowed start.config c) (ht : t ∈ c.threads)
    (hdrops : t.drops = true) :
    ∃ u ∈ c.threads, (u = t ∨ u.gate ≠ 0) ∧ ∃ ch, step cfg c.shared u ch ≠ none := by
  by_cases hgate : t.gate = 0
  · by_cases hfree : c.shared.control.gate = false
    · refine ⟨t, ht, .inl rfl, .go, ?_⟩
      cases t with
      | control p =>
        cases p with
        | store who => exact Option.some_ne_none _
        | lock op => simp [step, controlStep, hfree]
        | statusLoad => cases hdrops
        | _ => cases hgate
      | execute p =>
        cases p with
        | drop result =>
          simp only [step, executeStep]
          split_ifs <;> exact Option.some_ne_none _
        | closeBody result => cases result <;> exact Option.some_ne_none _
        | _ => cases hdrops
      | _ => cases hdrops
    · have hledger := (lifetimeInv_reachable h).gate
      rw [Bool.not_eq_false] at hfree
      rw [hfree, Bool.toNat_true] at hledger
      have hsome : total Thread.gate c.threads ≠ 0 := by omega
      rw [ne_eq, total_eq_zero, not_forall] at hsome
      obtain ⟨u, hu⟩ := hsome
      obtain ⟨hmem, hne⟩ := Classical.not_imp.mp hu
      exact ⟨u, hmem, .inr hne, gate_goes hne⟩
  · exact ⟨t, ht, .inl rfl, gate_goes hgate⟩

end TokioCronet.Request
