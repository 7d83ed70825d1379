import TokioCronet.Request.Lifetime

/-!
# Who holds the context and the body channel

A consumer learns that a body is over when the last sender of its channel is dropped. One
sender belongs to the `CallbackContext`, which lives as long as an `Arc` of it does; the
others belong to the tasks that send a chunk, or the error of the request. Both counts are
ledgers over the threads, so the end of the body says of every thread where it is not.
-/

namespace TokioCronet.Request

open Pool

variable {cfg : Settings} {s s' : Shared} {t u : Thread} {ch : Choice} {ts : List Thread}

/-! ## Weights -/

/-- `Arc`s of the context that an operation under the gate keeps for its caller. -/
def GatedOp.arcs : GatedOp → Nat
  | .cancel .registering | .cancel .started => 2
  | .cancel .leaking | .cancel (.task _) | .followRedirect _ | .resumeRead _ => 1
  | _ => 0

/-- `Arc`s of the context. The `NativeRequest` has one, and `start_request` and the cleanup
task have another beside it. -/
def Thread.arcs : Thread → Nat
  | .start .load | .start .admission | .start .new | .start (.returned _) => 0
  | .start _ | .cleanup _ => 2
  | .control (.store who) => (GatedOp.cancel who).arcs
  | .control (.lock op) | .control (.raw op) | .control (.done op) | .control (.call op)
  | .control (.unlock op _) => op.arcs
  | .callback _ | .terminal _ | .read _ => 1
  | .task (.sendError _) | .task (.releaseSender false) => 0
  | .task _ => 1
  | _ => 0

/-- Whether the operation keeps a body sender for its caller. -/
def GatedOp.sender : GatedOp → Nat
  | .cancel (.task true) | .resumeRead _ => 1
  | _ => 0

/-- Whether the caller of `read` has a body sender. -/
def Site.sender : Site → Nat
  | .gated _ => 1
  | _ => 0

/-- Clones of the context's `body_sender`. -/
def Thread.sender : Thread → Nat
  | .control (.store who) => (GatedOp.cancel who).sender
  | .control (.lock op) | .control (.raw op) | .control (.done op) | .control (.call op)
  | .control (.unlock op _) => op.sender
  | .read (.call site _) | .read (.returned site _ _) | .read (.record site _)
  | .read (.cancel site) => site.sender
  | .task (.send _ _) | .task (.sendError _) | .task (.record true _)
  | .task (.releaseSender _) => 1
  | _ => 0

/-- The context's own `body_sender`. -/
def Shared.ownSender (s : Shared) : Nat := if s.context.life = .live then 1 else 0

/-! ## Before there is a context -/

/-- `start_request` has not made the context yet. -/
def Thread.fresh : Thread → Bool
  | .start .load | .start .admission | .start .new => true
  | _ => false

/-- Who cancels a request that has no context yet. -/
def Canceler.early : Canceler → Bool
  | .app | .shutdown => true
  | _ => false

/-- The operation does not need a context. -/
def GatedOp.early : GatedOp → Bool
  | .cancel who => who.early
  | .status => true
  | _ => false

/-- A thread that is there without a context. -/
def Thread.early : Thread → Bool
  | .outside _ | .shutdown _ | .start .load | .start .admission | .start .new
  | .start (.returned _) | .control .statusLoad | .execute (.returned _) => true
  | .control (.store who) => who.early
  | .control (.lock op) | .control (.raw op) | .control (.done op) | .control (.call op)
  | .control (.unlock op _) => op.early
  | _ => false

theorem GatedOp.early_arcs (op : GatedOp) (h : op.early = true) : op.arcs = 0 := by
  cases op with
  | cancel who => cases who <;> first | rfl | cases h
  | status => rfl
  | _ => cases h

theorem GatedOp.early_sender (op : GatedOp) (h : op.early = true) : op.sender = 0 := by
  cases op with
  | cancel who => cases who <;> first | rfl | cases h
  | status => rfl
  | _ => cases h

theorem early_arcs (h : t.early = true) : t.arcs = 0 := by
  cases t with
  | start p => cases p <;> first | rfl | cases h
  | control p =>
    cases p with
    | statusLoad => rfl
    | store who => exact GatedOp.early_arcs (.cancel who) h
    | lock op | raw op | done op | call op | unlock op _ => exact op.early_arcs h
  | outside | shutdown | execute => rfl
  | _ => cases h

theorem early_sender (h : t.early = true) : t.sender = 0 := by
  cases t with
  | control p =>
    cases p with
    | statusLoad => rfl
    | store who => exact GatedOp.early_sender (.cancel who) h
    | lock op | raw op | done op | call op | unlock op _ => exact op.early_sender h
  | start | outside | shutdown | execute => rfl
  | _ => cases h

/-! ## One step -/

/-- What a step does with the context and with the senders of the body, unless it makes
the context. -/
structure Keeping (s : Shared) (t : Thread) (s' : Shared) (ts : List Thread) : Prop where
  /-- `senders` counts the senders. -/
  senders : t.sender + s.ownSender ≤ s.body.senders →
    s'.body.senders + t.sender + s.ownSender =
      s.body.senders + s'.ownSender + (ts.map Thread.sender).sum
  /-- There are as many `Arc`s as the threads have, or more. -/
  arcs : s.context.life = .live → s'.context.life = .live → t.arcs ≤ s.context.arcs →
    s.context.arcs + (ts.map Thread.arcs).sum ≤ s'.context.arcs + t.arcs
  /-- The context goes with its last `Arc`. -/
  life : s'.context.life = s.context.life ∨
    s.context.life = .live ∧ s'.context.life = .gone ∧ s.context.arcs = 1 ∧ 1 ≤ t.arcs
  /-- Nobody comes to hold the `NativeRequest` but from who had it. -/
  two : ∀ u ∈ ts, 2 ≤ u.arcs → 2 ≤ t.arcs

section Helpers

variable (op : GatedOp) (site : Site) (r : Runnable) (e : Option Error)

@[simp] theorem after_arcs : ((op.after e).map Thread.arcs).sum = op.arcs := by
  fun_cases GatedOp.after op e <;> rfl

@[simp] theorem after_sender : ((op.after e).map Thread.sender).sum = op.sender := by
  fun_cases GatedOp.after op e <;> rfl

@[simp] theorem leave_arcs : (site.leave.map Thread.arcs).sum = 1 := by
  cases site <;> rfl

@[simp] theorem leave_sender : (site.leave.map Thread.sender).sum = site.sender := by
  cases site <;> rfl

@[simp] theorem callback_sender : r.callback.sender = 0 := by
  cases r <;> rfl

theorem callback_arcs : r.callback.arcs = r.lease := by
  cases r <;> rfl

end Helpers

theorem arcs_le (hu : u ∈ ts) : u.arcs ≤ (ts.map Thread.arcs).sum := by
  rw [← total_coe]
  exact le_total (Multiset.mem_coe.mpr hu)

/-- The context is cloned `n` times and its sender `m` times. -/
theorem Keeping.cloned {n m : Nat} (hlife : s'.context.life = s.context.life)
    (harcs : s'.context.arcs = s.context.arcs + n)
    (hsenders : s'.body.senders = s.body.senders + m)
    (hheld : (ts.map Thread.arcs).sum ≤ t.arcs + n)
    (hsender : (ts.map Thread.sender).sum = t.sender + m)
    (htwo : ∀ u ∈ ts, 2 ≤ u.arcs → 2 ≤ t.arcs) : Keeping s t s' ts where
  senders := by
    intro _
    rw [hsender, hsenders, Shared.ownSender, Shared.ownSender, hlife]
    omega
  arcs := by
    intro _ _ _
    rw [harcs]
    omega
  life := .inl hlife
  two := htwo

/-- The threads hold what the thread held. -/
theorem Keeping.still (hlife : s'.context.life = s.context.life)
    (harcs : s'.context.arcs = s.context.arcs) (hsenders : s'.body.senders = s.body.senders)
    (hheld : (ts.map Thread.arcs).sum ≤ t.arcs)
    (hsender : (ts.map Thread.sender).sum = t.sender) : Keeping s t s' ts :=
  .cloned (n := 0) (m := 0) hlife harcs hsenders hheld hsender
    fun _ hu htwo => (htwo.trans (arcs_le hu)).trans hheld

/-- A task drops its sender. -/
theorem Keeping.unsent (hlife : s'.context.life = s.context.life)
    (harcs : s'.context.arcs = s.context.arcs)
    (hsenders : s'.body.senders = s.body.senders - 1)
    (hheld : (ts.map Thread.arcs).sum ≤ t.arcs)
    (hsender : (ts.map Thread.sender).sum + 1 = t.sender) : Keeping s t s' ts where
  senders := by
    intro hle
    rw [hsenders, Shared.ownSender, Shared.ownSender, hlife]
    omega
  arcs := by
    intro _ _ _
    rw [harcs]
    omega
  life := .inl hlife
  two := fun _ hu htwo => (htwo.trans (arcs_le hu)).trans hheld

/-- A thread drops its `Arc`. -/
theorem Keeping.released (hheld : (ts.map Thread.arcs).sum + 1 ≤ t.arcs)
    (hsender : (ts.map Thread.sender).sum = t.sender) : Keeping s t s.releaseArc ts := by
  have htwo : ∀ u ∈ ts, 2 ≤ u.arcs → 2 ≤ t.arcs := by
    intro u hu htwo
    have hle := arcs_le hu
    omega
  unfold Shared.releaseArc
  split_ifs with hlive hlast
  · refine ⟨?_, ?_, .inr ⟨hlive, rfl, hlast, by omega⟩, htwo⟩
    · intro hle
      have hown : s.ownSender = 1 := if_pos hlive
      rw [hown] at hle ⊢
      rw [hsender, Shared.ownSender, if_neg nofun]
      dsimp only
      omega
    · intro _ hgone
      cases hgone
  · refine ⟨?_, ?_, .inl rfl, htwo⟩
    · intro _
      rw [hsender, Shared.ownSender, Shared.ownSender]
      dsimp only
      omega
    · intro _ _ _
      dsimp only
      omega
  · refine ⟨?_, ?_, .inl rfl, htwo⟩
    · intro _
      rw [hsender]
      omega
    · intro hlive'
      exact absurd hlive' hlive

theorem none_two (h : (ts.all fun u => u.arcs ≤ 1) = true) :
    ∀ u ∈ ts, 2 ≤ u.arcs → 2 ≤ t.arcs := by
  intro u hu htwo
  have hle := of_decide_eq_true (List.all_eq_true.mp h u hu)
  omega

theorem startStep_keeping {p : Start} (h : startStep s p ch = some (s', ts)) (hp : p ≠ .new) :
    Keeping s (.start p) s' ts := by
  revert h hp
  fun_cases startStep s p ch <;> first | exact of_none | apply of_some
  all_goals
    intro hp
    first
      | exact absurd rfl hp
      | exact .still rfl rfl rfl (Nat.le_of_ble_eq_true rfl) rfl
      -- the cleanup task takes a clone of the context
      | exact .cloned (n := 1) (m := 0) rfl rfl rfl (Nat.le_of_ble_eq_true rfl) rfl
          (fun _ _ _ => Nat.le_refl 2)

theorem controlStep_keeping {p : Control} (h : controlStep s p ch = some (s', ts)) :
    Keeping s (.control p) s' ts := by
  revert h
  fun_cases controlStep s p ch <;> first | exact of_none | apply of_some
  all_goals first
    | exact .still rfl rfl rfl (Nat.le_refl _) rfl
    | exact .still rfl rfl rfl (after_arcs _ _).le (after_sender _ _)

theorem runnableStep_keeping {stage : Stage} {r : Runnable}
    (h : runnableStep s stage r ch = some (s', ts)) : Keeping s (.runnable stage r) s' ts := by
  revert h
  fun_cases runnableStep s stage r ch <;> first | exact of_none | apply of_some
  case case4 hleases =>
    have hone : r.callback.arcs = 1 := by rw [callback_arcs, Runnable.lease, hleases]; rfl
    refine .cloned (n := 1) (m := 0) rfl rfl rfl ?_ ?_ ?_
    · exact hone.le
    · exact callback_sender r
    · intro u hu htwo
      rw [List.mem_singleton.mp hu, hone] at htwo
      omega
  case case5 hleases =>
    refine .still rfl rfl rfl ?_ (callback_sender r)
    rw [List.map_singleton, List.sum_singleton, callback_arcs, Runnable.lease,
      Bool.eq_false_iff.mpr hleases]
    exact Nat.le_refl 0
  all_goals exact .still rfl rfl rfl (Nat.le_refl _) rfl

theorem callbackStep_keeping {p : Callback} (h : callbackStep cfg s p ch = some (s', ts)) :
    Keeping s (.callback p) s' ts := by
  revert h
  fun_cases callbackStep cfg s p ch <;> first | exact of_none | apply of_some
  all_goals first
    | exact .still rfl rfl rfl (Nat.le_refl _) rfl
    | exact .cloned (n := 1) (m := 0) rfl rfl rfl (Nat.le_refl _) rfl (none_two rfl)
    | exact .cloned (n := 1) (m := 1) rfl rfl rfl (Nat.le_refl _) rfl (none_two rfl)

theorem readStep_keeping {p : Read} (h : readStep s p ch = some (s', ts)) :
    Keeping s (.read p) s' ts := by
  revert h
  fun_cases readStep s p ch <;> first | exact of_none | apply of_some
  all_goals first
    | exact .still rfl rfl rfl (Nat.le_refl _) rfl
    | exact .still rfl rfl rfl (leave_arcs _).le (leave_sender _)

theorem terminalStep_keeping {p : Terminal} (h : terminalStep s p ch = some (s', ts)) :
    Keeping s (.terminal p) s' ts := by
  revert h
  fun_cases terminalStep s p ch <;> first | exact of_none | apply of_some
  all_goals first
    | exact .still rfl rfl rfl (Nat.le_refl _) rfl
    | exact .cloned (n := 0) (m := 1) rfl rfl rfl (Nat.le_refl _) rfl (none_two rfl)

theorem taskStep_keeping {p : Task} (h : taskStep cfg s p ch = some (s', ts)) :
    Keeping s (.task p) s' ts := by
  revert h
  fun_cases taskStep cfg s p ch <;> first | exact of_none | apply of_some
  case case12 sender e => cases sender <;> exact .still rfl rfl rfl (Nat.le_refl _) rfl
  all_goals first
    | exact .still rfl rfl rfl (Nat.le_of_ble_eq_true rfl) rfl
    | exact .unsent rfl rfl rfl (Nat.le_of_ble_eq_true rfl) rfl
    | exact .released (Nat.le_of_ble_eq_true rfl) rfl

theorem cleanupStep_keeping {p : Cleanup} (h : cleanupStep s p ch = some (s', ts)) :
    Keeping s (.cleanup p) s' ts := by
  revert h
  fun_cases cleanupStep s p ch <;> first | exact of_none | apply of_some
  all_goals first
    | exact .still rfl rfl rfl (Nat.le_of_ble_eq_true rfl) rfl
    | exact .released (Nat.le_of_ble_eq_true rfl) rfl

theorem executeStep_keeping {p : Execute} (h : executeStep s p ch = some (s', ts)) :
    Keeping s (.execute p) s' ts := by
  revert h
  fun_cases executeStep s p ch <;> first | exact of_none | apply of_some
  all_goals exact .still rfl rfl rfl (Nat.le_refl _) rfl

/-- **A step keeps the counts of the context and of its senders.** -/
theorem step_keeping (h : step cfg s t ch = some (s', ts)) (ht : t ≠ .start .new) :
    Keeping s t s' ts := by
  cases t with
  | outside who =>
    revert h
    rw [step]
    fun_cases outsideStep s who ch <;> first | exact of_none | apply of_some
    all_goals exact .still rfl rfl rfl (Nat.le_of_ble_eq_true rfl) rfl
  | start p => exact startStep_keeping h (fun hp => ht (congrArg _ hp))
  | shutdown p =>
    revert h
    rw [step]
    fun_cases shutdownStep s p ch <;> first | exact of_none | apply of_some
    all_goals exact .still rfl rfl rfl (Nat.le_of_ble_eq_true rfl) rfl
  | control p => exact controlStep_keeping h
  | runnable stage r => exact runnableStep_keeping h
  | callback p => exact callbackStep_keeping h
  | read p => exact readStep_keeping h
  | terminal p => exact terminalStep_keeping h
  | task p => exact taskStep_keeping h
  | upload p =>
    revert h
    rw [step]
    fun_cases uploadStep cfg s p ch <;> first | exact of_none | apply of_some
    all_goals exact .still rfl rfl rfl (Nat.le_of_ble_eq_true rfl) rfl
  | cleanup p => exact cleanupStep_keeping h
  | execute p => exact executeStep_keeping h

/-- `NativeRequest::new` makes the context, or fails. -/
theorem new_step (h : step cfg s (.start .new) ch = some (s', ts)) :
    (∃ e, s' = s ∧ ts = refuse e) ∨
    ts = [.start .registerPush] ∧ s'.context.life = .live ∧ s'.context.arcs = 2 ∧
      s'.body.senders = 1 := by
  cases ch with
  | go =>
    cases h
    exact .inr ⟨rfl, rfl, rfl, rfl⟩
  | outOfMemory kind =>
    cases h
    exact .inl ⟨_, rfl, rfl⟩
  | _ => cases h

/-- Who is on the way to the context was on the way to it before. -/
theorem step_fresh (h : step cfg s t ch = some (s', ts)) :
    ∀ u ∈ ts, u.fresh = true → t.fresh = true := by
  have hnone : (ts.all fun u => !u.fresh) = true →
      ∀ u ∈ ts, u.fresh = true → t.fresh = true := by
    intro hall u hu hfresh
    have hnot := List.all_eq_true.mp hall u hu
    rw [hfresh] at hnot
    cases hnot
  revert h hnone
  cases t <;> simp only [step]
  case outside who =>
    fun_cases outsideStep s who ch <;> first | exact of_none | (apply of_some; exact fun h => h rfl)
  case start p =>
    fun_cases startStep s p ch <;> first | exact of_none | apply of_some
    all_goals first
      | exact fun h => h rfl
      | exact fun _ _ _ _ => rfl
  case shutdown p =>
    fun_cases shutdownStep s p ch <;> first | exact of_none | (apply of_some; exact fun h => h rfl)
  case control p =>
    fun_cases controlStep s p ch <;> first | exact of_none | apply of_some
    all_goals first
      | exact fun h => h rfl
      | (intro h; refine h ?_; unfold GatedOp.after; split <;> rfl)
  case runnable stage r =>
    fun_cases runnableStep s stage r ch <;> first | exact of_none | apply of_some
    all_goals first
      | exact fun h => h rfl
      | (cases r <;> exact fun h => h rfl)
  case callback p =>
    fun_cases callbackStep cfg s p ch <;>
      first | exact of_none | (apply of_some; exact fun h => h rfl)
  case read p =>
    fun_cases readStep s p ch <;> first | exact of_none | apply of_some
    all_goals first
      | exact fun h => h rfl
      | (rename_i site _; cases site <;> exact fun h => h rfl)
      | (rename_i site; cases site <;> exact fun h => h rfl)
  case terminal p =>
    fun_cases terminalStep s p ch <;> first | exact of_none | (apply of_some; exact fun h => h rfl)
  case task p =>
    fun_cases taskStep cfg s p ch <;> first | exact of_none | (apply of_some; exact fun h => h rfl)
  case upload p =>
    fun_cases uploadStep cfg s p ch <;>
      first | exact of_none | (apply of_some; exact fun h => h rfl)
  case cleanup p =>
    fun_cases cleanupStep s p ch <;> first | exact of_none | (apply of_some; exact fun h => h rfl)
  case execute p =>
    fun_cases executeStep s p ch <;> first | exact of_none | (apply of_some; exact fun h => h rfl)

/-- Without a context nothing happens to it. -/
structure Before (s s' : Shared) (ts : List Thread) : Prop where
  /-- Nobody clones it. -/
  arcs : s'.context.arcs = s.context.arcs
  /-- Nobody has a sender. -/
  senders : s'.body.senders = s.body.senders
  /-- The native request is not started. -/
  accepting : s'.native.accepting = false
  /-- There are only threads that need no context. -/
  early : ∀ u ∈ ts, u.early = true

theorem early_all (h : (ts.all fun u => u.early) = true) : ∀ u ∈ ts, u.early = true :=
  fun u hu => List.all_eq_true.mp h u hu

theorem after_early {op : GatedOp} (h : op.early = true) (e : Option Error) :
    ∀ u ∈ op.after e, u.early = true := by
  cases op with
  | cancel who => cases who <;> first | exact early_all rfl | cases h
  | status => exact early_all rfl
  | _ => cases h

theorem step_early (h : step cfg s t ch = some (s', ts)) (ht : t.early = true)
    (hnew : t ≠ .start .new) (hnot : s.native.accepting = false) : Before s s' ts := by
  revert h ht hnew
  cases t <;> simp only [step]
  case outside who =>
    fun_cases outsideStep s who ch <;> first | exact of_none | apply of_some
    case case1 haccepting =>
      rw [hnot] at haccepting
      cases haccepting
    all_goals exact fun _ _ => ⟨rfl, rfl, hnot, early_all rfl⟩
  case start p =>
    fun_cases startStep s p ch <;> first | exact of_none | apply of_some
    all_goals
      intro ht hnew
      first
        | exact ⟨rfl, rfl, hnot, early_all rfl⟩
        | exact absurd rfl hnew
        | cases ht
  case shutdown p =>
    fun_cases shutdownStep s p ch <;> first | exact of_none | apply of_some
    all_goals exact fun _ _ => ⟨rfl, rfl, hnot, early_all rfl⟩
  case control p =>
    fun_cases controlStep s p ch <;> first | exact of_none | apply of_some
    all_goals
      intro ht hnew
      first
        | exact ⟨rfl, rfl, hnot, early_all rfl⟩
        | exact ⟨rfl, rfl, hnot, List.forall_mem_singleton.mpr ht⟩
        | exact ⟨rfl, rfl, hnot, after_early ht _⟩
  case execute p =>
    fun_cases executeStep s p ch <;> first | exact of_none | (apply of_some; intro ht; cases ht)
  all_goals
    intro _ ht
    cases ht

/-! ## The invariant -/

/-- What holds of the context and of its senders, whatever Cronet does. -/
structure ContextInv (c : Config Shared Thread) : Prop where
  /-- Before there is a context nobody has a part of it. -/
  unborn : c.shared.context.life = .unborn → c.shared.context.arcs = 0 ∧
    c.shared.body.senders = 0 ∧ c.shared.native.accepting = false ∧
    ∀ t ∈ c.threads, t.early = true
  /-- The context is made once. -/
  fresh : ∀ t ∈ c.threads, t.fresh = true → c.shared.context.life = .unborn
  /-- The channel counts the senders that there are. -/
  senders : c.shared.body.senders = c.shared.ownSender + total Thread.sender c.threads
  /-- The context counts the `Arc`s that there are. -/
  arcs : c.shared.context.life = .live → total Thread.arcs c.threads ≤ c.shared.context.arcs
  /-- While somebody has the `NativeRequest` the context is there. -/
  held : ∀ t ∈ c.threads, 2 ≤ t.arcs → c.shared.context.life = .live

theorem contextInv_init : ContextInv start.config where
  unborn := by simp [start, Listed.config, Thread.early]
  fresh := by simp [start, Listed.config]
  senders := by simp [start, Listed.config, Shared.ownSender, Thread.sender]
  arcs := by simp [start, Listed.config]
  held := by simp [start, Listed.config, Thread.arcs]

variable {allowed : Policy Shared Thread Choice} {c c' : Config Shared Thread}
  {rest : Multiset Thread}

/-- The context is made. -/
theorem ContextInv.made (hl : LifetimeInv ⟨s, .start .new ::ₘ rest⟩)
    (hi : ContextInv ⟨s, .start .new ::ₘ rest⟩)
    (h : step cfg s (.start .new) ch = some (s', ts)) :
    ContextInv ⟨s', (ts : Multiset Thread) + rest⟩ := by
  have hunborn : s.context.life = .unborn := hi.fresh _ (Multiset.mem_cons_self _ _) rfl
  obtain ⟨harcs, hsenders, hnot, hearly⟩ := hi.unborn hunborn
  have hrest : ∀ u ∈ rest, u.early = true := fun u hu => hearly u (Multiset.mem_cons_of_mem hu)
  rcases new_step h with ⟨e, rfl, rfl⟩ | ⟨rfl, hlive, htwo, hone⟩
  · -- there is no context to come either
    have hearly' : ∀ u ∈ (refuse e : Multiset Thread) + rest, u.early = true :=
      forall_step hearly (fun _ => early_all rfl) (fun _ _ hu => hu)
    refine ⟨fun _ => ⟨harcs, hsenders, hnot, hearly'⟩, fun _ _ _ => hunborn, ?_, ?_, ?_⟩
    · rw [hsenders, total_eq_zero.mpr fun u hu => early_sender (hearly' u hu), Shared.ownSender,
        hunborn]
      rfl
    · intro hlive
      rw [hunborn] at hlive
      cases hlive
    · intro u hu htwo
      rw [early_arcs (hearly' u hu)] at htwo
      cases htwo
  · have howner : ∀ u ∈ rest, u.fresh = false := by
      intro u hu
      have hadd : (Thread.start .new).owner + u.owner ≤
        total Thread.owner (.start .new ::ₘ rest) := add_le_total hu
      have hbudget : s.trace.count .destroy + total Thread.owner (.start .new ::ₘ rest) ≤ 1 :=
        hl.owner
      have hzero : u.owner = 0 := by
        simp only [Thread.owner] at hadd hbudget ⊢
        omega
      cases u with
      | start p => cases p <;> first | rfl | cases hzero
      | _ => rfl
    have hnone : total Thread.arcs rest = 0 :=
      total_eq_zero.mpr fun u hu => early_arcs (hrest u hu)
    have hunsent : total Thread.sender rest = 0 :=
      total_eq_zero.mpr fun u hu => early_sender (hrest u hu)
    refine ⟨?_, ?_, ?_, ?_, fun _ _ _ => hlive⟩
    · intro hnot'
      rw [hlive] at hnot'
      cases hnot'
    · intro u hu hfresh
      rcases Multiset.mem_add.mp hu with hu | hu
      · rw [List.mem_singleton.mp (Multiset.mem_coe.mp hu)] at hfresh
        cases hfresh
      · rw [howner u hu] at hfresh
        cases hfresh
    · rw [hone, total_add, total_coe, hunsent, Shared.ownSender, if_pos hlive]
      rfl
    · intro _
      rw [htwo, total_add, total_coe, hnone]
      exact Nat.le_refl 2

theorem contextInv_step (hl : LifetimeInv c) (hi : ContextInv c)
    (hs : Step (step cfg) allowed c c') : ContextInv c' := by
  obtain ⟨_, hn⟩ := hs
  rename_i s s' t ts rest ch _
  have hmem : t ∈ t ::ₘ rest := Multiset.mem_cons_self t rest
  by_cases hnew : t = .start .new
  · subst hnew
    exact hi.made hl hn
  have hk := step_keeping hn hnew
  have hledger : s.body.senders = s.ownSender + total Thread.sender (t ::ₘ rest) := hi.senders
  rw [total_cons] at hledger
  -- who has the `NativeRequest` is not the one with the last `Arc`
  have hkept : ∀ u ∈ t ::ₘ rest, 2 ≤ u.arcs → s'.context.life = .live := by
    intro u hu htwo
    have hlive : s.context.life = .live := hi.held u hu htwo
    rcases hk.life with heq | ⟨-, -, hone, ht⟩
    · exact heq.trans hlive
    · have harcs : total Thread.arcs (t ::ₘ rest) ≤ s.context.arcs := hi.arcs hlive
      have hle : u.arcs ≤ total Thread.arcs (t ::ₘ rest) := le_total hu
      omega
  refine ⟨?_, ?_, ?_, ?_, ?_⟩
  · intro hunborn
    have hbefore : s.context.life = .unborn := by
      rcases hk.life with heq | ⟨-, hgone, -⟩
      · exact heq.symm.trans hunborn
      · rw [hgone] at hunborn
        cases hunborn
    obtain ⟨harcs, hsenders, hnot, hearly⟩ := hi.unborn hbefore
    have hb := step_early hn (hearly t hmem) hnew hnot
    exact ⟨hb.arcs.trans harcs, hb.senders.trans hsenders, hb.accepting,
      forall_step hearly (fun _ => hb.early) (fun _ _ hu => hu)⟩
  · have hunborn : s.context.life = .unborn → s'.context.life = .unborn := by
      intro hbefore
      rcases hk.life with heq | ⟨hlive, -⟩
      · exact heq.trans hbefore
      · rw [hlive] at hbefore
        cases hbefore
    refine forall_step hi.fresh ?_ (fun u _ hu hfresh => hunborn (hu hfresh))
    intro ht u hu hfresh
    exact hunborn (ht (step_fresh hn u hu hfresh))
  · have hmoved := hk.senders (by omega)
    rw [total_add, total_coe]
    simp only
    omega
  · intro hlive
    have hbefore : s.context.life = .live := by
      rcases hk.life with heq | ⟨h, -⟩
      · exact heq.symm.trans hlive
      · exact h
    have harcs : total Thread.arcs (t ::ₘ rest) ≤ s.context.arcs := hi.arcs hbefore
    rw [total_cons] at harcs
    have hmoved := hk.arcs hbefore hlive (by omega)
    rw [total_add, total_coe]
    simp only
    omega
  · intro u hu htwo
    rcases Multiset.mem_add.mp hu with hu | hu
    · exact hkept t hmem (hk.two u (Multiset.mem_coe.mp hu) htwo)
    · exact hkept u (Multiset.mem_cons_of_mem hu) htwo

theorem contextInv_reachable (h : Reachable (step cfg) allowed start.config c) :
    ContextInv c :=
  h.invariant contextInv_init fun hr hi hs => contextInv_step (lifetimeInv_reachable hr) hi hs

/-- **When the body has no sender, nothing is on its way to it.** -/
theorem ContextInv.unsent (hi : ContextInv c) (hnone : c.shared.body.senders = 0) :
    c.shared.context.life ≠ .live ∧ ∀ t ∈ c.threads, t.sender = 0 := by
  have hledger := hi.senders
  refine ⟨?_, total_eq_zero.mp (by omega)⟩
  intro hlive
  rw [Shared.ownSender, if_pos hlive] at hledger
  omega

end TokioCronet.Request
