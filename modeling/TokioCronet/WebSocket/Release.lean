import TokioCronet.WebSocket.Quiet

/-!
# What `open_websocket` makes is given back

The native socket and the `Arc` lent to its callbacks are raw values, and what gives them
back is the code on each way out: the three exits behind a `Create` that fail, and the drop
of a `WebSocket`. The future has no such code for its await point. Dropped there, it leaves
the socket without an owner, and with it the lent `Arc`, the context and the operation.

In a run in which no future is dropped there, a live socket has its owner; every strong
reference to the context is held by a thread or is the lent one, which goes when the socket
is destroyed; and when nobody is left, nothing is.
-/

namespace TokioCronet.WebSocket

open Pool
open Request (Lifetime)

variable {s s' : Shared} {t u : Thread} {ts : List Thread} {ch : Choice}

/-- The strong count of the context, while there is one. -/
def Shared.strong (s : Shared) : Nat :=
  if s.context.life = .live then s.context.arcs else 0

/-- Everything that was made is accounted for, and nothing is given back twice. -/
structure GivenBack (c : Config Shared Thread) : Prop where
  /-- There is one native socket at most. It is live until it is destroyed, -/
  created : c.shared.trace.count .created ≤ 1
  /-- A socket that was created lives or was destroyed. -/
  destroyed : c.shared.trace.count .created =
    c.shared.trace.count .destroyed + if c.shared.native.socket = .live then 1 else 0
  /-- and until then it has an owner. -/
  owned : c.shared.native.socket = .live → total Thread.owner c.threads = 1
  /-- A strong reference is held by a thread, or lent to the callbacks of a live socket. -/
  arcs : total Thread.arcs c.threads + c.shared.rawArc = c.shared.strong
  /-- The operation belongs to the context, or to the call that is about to make one. -/
  operation : c.shared.context.operation = true →
    c.shared.context.life = .live ∨ total Thread.owner c.threads = 1
  /-- The engine counts it as long. -/
  counted : c.shared.engine.active = total Engine.Thread.operations (view c).threads
  /-- When nobody owns the socket or holds the context, there is neither. -/
  nothing : total Thread.owner c.threads = 0 → total Thread.arcs c.threads = 0 →
    c.shared.trace.count .created = c.shared.trace.count .destroyed ∧
      c.shared.rawArc = 0 ∧ c.shared.context.life ≠ .live ∧ c.shared.context.operation = false

/-- The future of `open_websocket` is not dropped where it waits. -/
def FutureKept : Policy Shared Thread Choice := fun c t ch =>
  NetworkJoined c t ch ∧ (t = .opening .await → ch ≠ .drop)

/-! ## What is made -/

/-- How many sockets were created and destroyed. -/
def made (tr : List Event) : Nat × Nat := (tr.count .created, tr.count .destroyed)

theorem made_append {tr l : List Event} (hc : .created ∉ l) (hd : .destroyed ∉ l) :
    made (tr ++ l) = made tr := by
  unfold made
  rw [List.count_append, List.count_append, List.count_eq_zero_of_not_mem hc,
    List.count_eq_zero_of_not_mem hd]
  rfl

theorem made_reach : made s.reach.trace = made s.trace := by
  refine made_append ?_ ?_ <;> split <;> simp

theorem made_post {task : NetTask} : made (s.post task).trace = made s.trace := by
  refine made_append ?_ ?_ <;> simp

theorem made_notified {c : Callback} : made (s.notified c).trace = made s.trace := by
  refine made_append ?_ ?_ <;> split <;> simp

/-- A step makes a socket, destroys it, or leaves it. -/
inductive Made (s : Shared) (t : Thread) (s' : Shared) : Prop
  | none : s'.native.socket = s.native.socket → made s'.trace = made s.trace → Made s t s'
  | creates : t = .opening .create → s'.native.socket = .live →
      made s'.trace = ((made s.trace).1 + 1, (made s.trace).2) → Made s t s'
  | destroys {who : Destroyer} : t = .destroy (.delete who) → s'.native.socket = .gone →
      made s'.trace = ((made s.trace).1, (made s.trace).2 + 1) → Made s t s'

theorem Move.made (hm : Move s t s' ts) : Made s t s' := by
  cases hm with
  | creates =>
    refine .creates rfl rfl ?_
    change made (s.trace ++ [.created]) = _
    simp [WebSocket.made]
  | @deletes who =>
    refine .destroys rfl rfl ?_
    change made (s.trace ++ .destroyed :: who.returns) = _
    cases who <;> simp [WebSocket.made, Destroyer.returns]
  | fails | opens | misses | loadsNull | receives | ends | delivers | finishes | runsConnect
  | runsDestroy | runs => exact .none rfl (made_append (by simp) (by simp))
  | connects => exact .none rfl (made_post.trans made_reach)
  | calls => exact .none rfl (made_post.trans made_reach)
  | asks =>
    refine .none rfl (made_post.trans ?_)
    exact made_reach (s := s)
  | resets => exact .none rfl made_reach
  | closesRefused => exact .none rfl made_post
  | closes =>
    refine .none rfl ((made_append (by simp) (by simp)).trans ?_)
    exact made_post
  | unstarted | sendFails => exact .none rfl (made_notified.trans made_reach)
  | faults =>
    refine .none rfl (made_notified.trans ?_)
    exact made_append (by simp) (by simp)
  | event => exact .none rfl made_notified
  | lets | gives =>
    refine .none ?_ ?_
    · rw [releaseArc_native]
    · rw [releaseArc_trace]
  | _ => exact .none rfl rfl

/-! ## Who owns it -/

/-- A future that is not dropped goes on with its socket. -/
theorem await_keeps (hn : step s (.opening .await) ch = some (s', ts)) (hch : ch ≠ .drop) :
    ∃ u ∈ ts, u.owner = 1 := by
  have hm : Move s (.opening .await) s' ts := step_move hn
  cases hm with
  | opens | rejects => exact ⟨_, List.mem_cons_self, rfl⟩
  | leaks =>
    cases ch with
    | drop => exact absurd rfl hch
    | go =>
      -- what the answer leads to is not what the drop leaves
      simp only [step, openStep] at hn
      split at hn
      · cases congrArg Prod.snd (Option.some.inj hn)
      · cases congrArg Prod.snd (Option.some.inj hn)
      · split at hn
        · cases congrArg Prod.snd (Option.some.inj hn)
        · cases hn
    | _ => cases hn

/-- The owner of a socket hands it on, or there is no socket after its step. -/
theorem Move.handedOn (hm : Move s t s' ts) (ht : t.owner = 1 → t.stage.Holds s)
    (hawait : t = .opening .await → ∃ u ∈ ts, u.owner = 1) :
    (ts.map Thread.owner).sum = t.owner ∨
      s'.native.socket ≠ .live ∧ (s'.context.operation = true → s'.context.life = .live) := by
  have hengine : ∀ {v : Engine.Thread User} {us : List (Engine.Thread User)} {e : Engine.Shared},
      t = .engine v → (us.map calling).sum ≤ calling v →
      (us.map calling).sum = calling v ∨
        s.native.socket ≠ .live ∧ (s.context.operation = true → s.context.life = .live) := by
    rintro v us e rfl hle
    by_cases heq : (us.map calling).sum = calling v
    · exact .inl heq
    · have hbound : calling v ≤ 1 := by
        cases v <;> simp [calling] <;> rename_i k <;> cases k <;> simp [User.isSocket]
      obtain ⟨hsocket, -, -, -, hoperation⟩ := ht (show calling v = 1 by omega)
      refine .inr ⟨?_, ?_⟩
      · rw [hsocket]
        exact Lifetime.noConfusion
      · rw [hoperation]
        exact Bool.noConfusion
  induction hm with
  | @engine v ch e us hn _ _ hc =>
    rw [map_engine_owner]
    exact hengine (e := e) rfl (engine_calling hn hc)
  | @stops r code e us hn =>
    rw [map_engine_owner]
    exact hengine (e := e) rfl (engine_calling hn (by simp))
  | fails =>
    obtain ⟨hsocket, -⟩ := ht rfl
    refine .inr ⟨?_, Bool.noConfusion⟩
    change s.native.socket ≠ .live
    rw [hsocket]
    exact Lifetime.noConfusion
  | @deletes who =>
    have hlive : s.context.life = .live := by
      cases who <;> exact (ht rfl).2.1
    exact .inr ⟨Lifetime.noConfusion, fun _ => hlive⟩
  | leaks =>
    obtain ⟨u, hu, ho⟩ := hawait rfl
    simp only [List.mem_cons, List.not_mem_nil, or_false] at hu
    rcases hu with rfl | rfl <;> cases ho
  | @resets who again | @waits who again => cases again <;> exact .inl rfl
  | takes =>
    left
    rw [List.map_append, List.sum_append, operationDrop_owner, Nat.zero_add]
    rfl
  | lets =>
    left
    rw [List.map_append, List.sum_append, releaseArc_owner, Nat.zero_add]
    rfl
  | gives => exact .inl releaseArc_owner
  | _ => exact .inl rfl

/-! ## The strong count -/

/-- A thread that gives back what it holds lowers the strong count by one. -/
theorem releaseArc_strong (h : 1 ≤ s.strong) : s.releaseArc.1.strong + 1 = s.strong := by
  unfold Shared.strong at h ⊢
  unfold Shared.releaseArc
  by_cases hl : s.context.life = .live
  · rw [if_pos hl] at h ⊢
    rw [if_pos hl]
    by_cases ha : s.context.arcs = 1
    · rw [if_pos ha, ha]
      rfl
    · rw [if_neg ha]
      change (if s.context.life = .live then s.context.arcs - 1 else 0) + 1 = s.context.arcs
      rw [if_pos hl]
      omega
  · rw [if_neg hl] at h
    cases h

/-- **What the threads and the native side gain in a step is what the strong count gains.** -/
theorem Move.balance (hm : Move s t s' ts) (ht : t.owner = 1 → t.stage.Holds s)
    (hcalled : t.called = true → s.context.life = .live) (hheld : t.arcs ≤ s.strong) :
    s'.rawArc + (ts.map Thread.arcs).sum + s.strong = s.rawArc + t.arcs + s'.strong := by
  induction hm with
  | engine | stops =>
    rw [map_engine_arcs, arcs_engine]
    rfl
  | creates =>
    obtain ⟨-, hl, hcallbacks, -, -⟩ := ht rfl
    simp [Shared.rawArc, Shared.strong, Thread.arcs, Thread.owner, Thread.stage, Open.stage,
      Stage.arcs, hcallbacks, hl]
  | fails =>
    obtain ⟨hsocket, hl, -, -, -⟩ := ht rfl
    simp [Shared.rawArc, Shared.strong, Shared.openFailed, Thread.arcs, Thread.owner,
      Thread.stage, Open.stage, Stage.arcs, calling, hsocket, hl]
  | attaches =>
    obtain ⟨hsocket, hl, hcallbacks, -, -⟩ := ht rfl
    simp [Shared.rawArc, Shared.strong, Thread.arcs, Thread.owner, Thread.stage, Open.stage,
      Stage.arcs, hsocket, hl, hcallbacks]
    omega
  | @deletes who =>
    cases who <;> obtain ⟨hsocket, hl, hcallbacks, -, -⟩ := ht rfl <;>
      simp [Shared.rawArc, Shared.strong, Thread.arcs, Thread.owner, Thread.stage, Destroy.stage,
        Destroyer.stage, Stage.arcs, Destroyer.releases, calling, hsocket, hl, hcallbacks]
  | @lets caller =>
    have hone : 1 ≤ s.strong := by
      refine le_trans ?_ hheld
      exact Nat.le_add_right _ _
    have hless := releaseArc_strong hone
    have hraw : s.releaseArc.1.rawArc = s.rawArc :=
      rawArc_congr (by rw [releaseArc_native]) (by rw [releaseArc_native])
    simp [Thread.arcs, InCallback.arcs]
    omega
  | gives =>
    have hless := releaseArc_strong (le_trans (Nat.le_refl 1) hheld)
    have hraw : s.releaseArc.1.rawArc = s.rawArc :=
      rawArc_congr (by rw [releaseArc_native]) (by rw [releaseArc_native])
    simp [Thread.arcs]
    omega
  | @enters c caller hc =>
    have hl := hcalled rfl
    have hbody : c.body.arcs = 1 := by
      cases c <;> first | rfl | exact absurd rfl hc
    simp [Shared.rawArc, Shared.strong, Thread.arcs, hbody, hl]
    simp [InCallback.arcs]
    omega
  | @answers c _ p _ _ hp =>
    rw [hp]
    split <;> simp [Shared.rawArc, Shared.strong, Thread.arcs, InCallback.arcs, Shared.answer]
  | @delivers c _ p _ _ hp =>
    rw [hp]
    split <;> simp [Shared.rawArc, Shared.strong, Thread.arcs, InCallback.arcs, Shared.trySend]
  | @resets who again | @asks who again | @waits who again =>
    cases who <;> cases again <;> rfl
  | unstarted | sendFails | faults | event =>
    unfold Shared.notify
    split <;> rfl
  | @clears who => cases who <;> rfl
  | takes =>
    rw [List.map_append, List.sum_append, operationDrop_arcs, Nat.zero_add]
    rfl
  | _ => rfl

/-- A count that is positive stays so while the context is there. -/
theorem Move.positive (hm : Move s t s' ts) (h : s.context.life = .live → 0 < s.context.arcs)
    (hl : s'.context.life = .live) : 0 < s'.context.arcs := by
  have hrelease : s.releaseArc.1.context.life = .live → 0 < s.releaseArc.1.context.arcs := by
    intro hlive
    unfold Shared.releaseArc at hlive ⊢
    by_cases hbefore : s.context.life = .live
    · rw [if_pos hbefore] at hlive ⊢
      have hpos := h hbefore
      by_cases ha : s.context.arcs = 1
      · rw [if_pos ha] at hlive
        cases hlive
      · rw [if_neg ha]
        change 0 < s.context.arcs - 1
        omega
    · rw [if_neg hbefore] at hlive
      exact absurd hlive hbefore
  induction hm with
  | creates => exact Nat.one_pos
  | attaches | enters => exact Nat.succ_pos _
  | lets | gives => exact hrelease hl
  | fails => cases hl
  | _ => exact h hl

/-- The operation does not outlive the context. -/
theorem Move.operation_life (hm : Move s t s' ts) (h : s'.context.operation = true)
    (hl : s.context.life = .live) : s'.context.life = .live := by
  have hrelease :
      s.releaseArc.1.context.operation = true → s.releaseArc.1.context.life = .live := by
    intro ho
    unfold Shared.releaseArc at ho ⊢
    rw [if_pos hl] at ho ⊢
    by_cases ha : s.context.arcs = 1
    · rw [if_pos ha] at ho
      cases ho
    · rw [if_neg ha]
      exact hl
  induction hm with
  | creates => rfl
  | fails => cases h
  | lets | gives => exact hrelease h
  | _ => exact hl

theorem Move.operation_source (hm : Move s t s' ts) (h : s'.context.operation = true) :
    s.context.operation = true ∨ t = .engine (.admitted .socket) := by
  induction hm with
  | admits => exact .inr rfl
  | fails | takes => cases h
  | lets | gives =>
    left
    unfold Shared.releaseArc at h
    split at h
    · split at h
      · cases h
      · exact h
    · exact h
  | _ => exact .inl h

/-! ## The invariant -/

/-- What the run has made, and who holds it. -/
structure ReleaseInv (c : Config Shared Thread) : Prop where
  /-- One socket is created. -/
  created : (made c.shared.trace).1 = if c.shared.native.socket = .unborn then 0 else 1
  /-- It is destroyed when it is gone. -/
  destroyed : (made c.shared.trace).2 = if c.shared.native.socket = .gone then 1 else 0
  /-- While it lives one thread owns it. -/
  owned : c.shared.native.socket = .live → total Thread.owner c.threads = 1
  /-- The references are those that the threads have. -/
  arcs : total Thread.arcs c.threads + c.shared.rawArc = c.shared.strong
  /-- A context that lives has a reference. -/
  positive : c.shared.context.life = .live → 0 < c.shared.context.arcs
  /-- An operation belongs to a context or to the owner. -/
  operation : c.shared.context.operation = true →
    c.shared.context.life = .live ∨ total Thread.owner c.threads = 1

variable {c c' : Config Shared Thread}

theorem releaseInv_init : ReleaseInv start.config where
  created := rfl
  destroyed := rfl
  owned := nofun
  arcs := by decide
  positive := nofun
  operation := nofun

/-- A callback runs on a context that is there. -/
theorem ReleaseInv.called (hi : ReleaseInv c) (h : Reachable step NetworkJoined start.config c)
    (ht : t ∈ c.threads) (hc : t.called = true) : c.shared.context.life = .live := by
  have hheld : 0 < c.shared.strong := by
    have hledger := hi.arcs
    have hle : t.arcs ≤ total Thread.arcs c.threads := le_total ht
    cases t with
    | callback p caller =>
      cases caller with
      | network =>
        -- the socket is live, and has been lent a reference
        have hlive := socket_of_reports h ht rfl hc
        have hcallbacks := ((ownershipInv_reachable h).stands _ ht).called hc
        have hraw : c.shared.rawArc = 1 := if_pos ⟨hlive, hcallbacks⟩
        omega
      | connect =>
        have hone : 1 ≤ Thread.arcs (.callback p .connect) := Nat.le_add_left 1 p.arcs
        omega
      | socket =>
        have hone : 1 ≤ Thread.arcs (.callback p .socket) := Nat.le_add_left 1 p.arcs
        omega
    | _ => cases hc
  by_contra hl
  unfold Shared.strong at hheld
  rw [if_neg hl] at hheld
  cases hheld

theorem releaseInv_step (h : Reachable step FutureKept start.config c) (hi : ReleaseInv c)
    (hs : Step step FutureKept c c') : ReleaseInv c' := by
  have hjoined : Reachable step NetworkJoined start.config c := h.mono (fun _ _ _ ha => ha.1)
  have hown := ownershipInv_reachable h
  obtain ⟨⟨-, hkept⟩, hn⟩ := hs
  rename_i s s' t ts rest ch
  have hm : Move s t s' ts := step_move hn
  have hmem : t ∈ t ::ₘ rest := Multiset.mem_cons_self t rest
  have hself := hown.stands t hmem
  have hone : total Thread.owner (t ::ₘ rest) ≤ 1 := hown.owner
  have hledger : total Thread.arcs (t ::ₘ rest) + s.rawArc = s.strong := hi.arcs
  have hhanded := hm.handedOn hself.stage (by
    rintro rfl
    exact await_keeps hn (hkept rfl))
  have htotal : total Thread.owner (ts + rest) + t.owner =
      total Thread.owner (t ::ₘ rest) + (ts.map Thread.owner).sum := by
    rw [total_add, total_coe, total_cons]
    omega
  refine ⟨?_, ?_, ?_, ?_, hm.positive hi.positive, ?_⟩
  · have hbefore : (made s.trace).1 = if s.native.socket = .unborn then 0 else 1 := hi.created
    rcases hm.made with ⟨hsocket, hmade⟩ | ⟨rfl, hsocket, hmade⟩ | ⟨rfl, hsocket, hmade⟩
    · change (made s'.trace).1 = if s'.native.socket = .unborn then 0 else 1
      rw [hmade, hsocket]
      exact hbefore
    · change (made s'.trace).1 = if s'.native.socket = .unborn then 0 else 1
      rw [hmade, hsocket, hbefore, if_pos (hself.stage rfl).1]
      rfl
    · rename_i who
      have hlive : s.native.socket = .live := by
        cases who <;> exact (hself.stage rfl).1
      change (made s'.trace).1 = if s'.native.socket = .unborn then 0 else 1
      rw [hmade, hsocket, hbefore, hlive]
      rfl
  · have hbefore : (made s.trace).2 = if s.native.socket = .gone then 1 else 0 := hi.destroyed
    rcases hm.made with ⟨hsocket, hmade⟩ | ⟨rfl, hsocket, hmade⟩ | ⟨rfl, hsocket, hmade⟩
    · change (made s'.trace).2 = if s'.native.socket = .gone then 1 else 0
      rw [hmade, hsocket]
      exact hbefore
    · have hunborn : s.native.socket = .unborn := (hself.stage rfl).1
      change (made s'.trace).2 = if s'.native.socket = .gone then 1 else 0
      rw [hmade, hsocket, hbefore, hunborn]
      rfl
    · rename_i who
      have hlive : s.native.socket = .live := by
        cases who <;> exact (hself.stage rfl).1
      change (made s'.trace).2 = if s'.native.socket = .gone then 1 else 0
      rw [hmade, hsocket, hbefore, hlive]
      rfl
  · intro hlive
    rcases hhanded with heq | ⟨hnot, -⟩
    · rcases hm.socket hlive with hold | rfl
      · have hbefore : total Thread.owner (t ::ₘ rest) = 1 := hi.owned hold
        change total Thread.owner (ts + rest) = 1
        omega
      · have hle : Thread.owner (.opening .create) ≤
            total Thread.owner (.opening .create ::ₘ rest) := le_total hmem
        change 1 ≤ _ at hle
        change total Thread.owner (ts + rest) = 1
        omega
    · exact absurd hlive hnot
  · -- the ledger
    have hheld : t.arcs ≤ s.strong := by
      have hle : t.arcs ≤ total Thread.arcs (t ::ₘ rest) := le_total hmem
      omega
    have hgain := hm.balance hself.stage (fun hc => hi.called hjoined hmem hc) hheld
    change total Thread.arcs (ts + rest) + s'.rawArc = s'.strong
    rw [total_cons] at hledger
    rw [total_add, total_coe]
    omega
  · intro ho
    rcases hm.operation_source ho with hold | rfl
    · rcases hi.operation hold with hl | hbefore
      · exact .inl (hm.operation_life ho hl)
      · have hbefore : total Thread.owner (t ::ₘ rest) = 1 := hbefore
        rcases hhanded with heq | ⟨-, hlife⟩
        · right
          change total Thread.owner (ts + rest) = 1
          omega
        · exact .inl (hlife ho)
    · right
      have hle : Thread.owner (.engine (.admitted .socket)) ≤
          total Thread.owner (.engine (.admitted .socket) ::ₘ rest) := le_total hmem
      change 1 ≤ _ at hle
      cases hm with
      | engine _ _ hne => exact absurd rfl hne
      | admits =>
        change total Thread.owner (([.opening .create] : List Thread) + rest) = 1
        rw [total_cons] at hone hle
        rw [total_add, total_coe]
        change 1 + 0 + _ = 1
        change 1 + _ ≤ 1 at hone
        omega

theorem releaseInv_reachable (h : Reachable step FutureKept start.config c) : ReleaseInv c :=
  h.invariant releaseInv_init (fun hr hi hs => releaseInv_step hr hi hs)

/-- **What `open_websocket` makes is given back once** in every run in which its future is
not dropped at the await point. -/
theorem socket_given_back (h : Reachable step FutureKept start.config c) : GivenBack c := by
  have hi := releaseInv_reachable h
  have hcreated : c.shared.trace.count .created =
      if c.shared.native.socket = .unborn then 0 else 1 := hi.created
  have hdestroyed : c.shared.trace.count .destroyed =
      if c.shared.native.socket = .gone then 1 else 0 := hi.destroyed
  have hcount : c.shared.trace.count .created =
      c.shared.trace.count .destroyed + if c.shared.native.socket = .live then 1 else 0 := by
    rw [hcreated, hdestroyed]
    cases c.shared.native.socket <;> rfl
  refine ⟨?_, hcount, hi.owned, hi.arcs, hi.operation,
    (Engine.admissionInv_reachable (engine_reachable h)).operations, ?_⟩
  · rw [hcreated]
    split <;> omega
  · intro hnobody hnone
    have hdead : c.shared.native.socket ≠ .live := by
      intro hlive
      have hone := hi.owned hlive
      omega
    have hraw : c.shared.rawArc = 0 := if_neg (fun hlive => hdead hlive.1)
    have hgone : c.shared.context.life ≠ .live := by
      intro hl
      have hledger := hi.arcs
      have hstrong : c.shared.strong = c.shared.context.arcs := if_pos hl
      have hpos := hi.positive hl
      omega
    refine ⟨?_, hraw, hgone, ?_⟩
    · rw [hcount, if_neg hdead, Nat.add_zero]
    · by_contra ho
      rcases hi.operation (by simpa using ho) with hl | hone
      · exact hgone hl
      · omega

/-! ## A dropped future -/

/-- A socket that nobody owns stays as it is. -/
theorem leaked_step {allowed : Policy Shared Thread Choice}
    (h : total Thread.owner c.threads = 0 ∧ c.shared.native.socket = .live)
    (hs : Step step allowed c c') :
    total Thread.owner c'.threads = 0 ∧ c'.shared.native.socket = .live := by
  obtain ⟨hnobody, hlive⟩ := h
  obtain ⟨_, hn⟩ := hs
  rename_i s s' t ts rest ch _
  have hm : Move s t s' ts := step_move hn
  have hnobody : total Thread.owner (t ::ₘ rest) = 0 := hnobody
  have hle : total Thread.owner (ts + rest) ≤ 0 := passed_step (Nat.le_of_eq hnobody) hm.owner
  rw [total_cons] at hnobody
  refine ⟨Nat.le_zero.mp hle, ?_⟩
  change s'.native.socket = .live
  rw [(hm.frame (by omega)).1]
  exact hlive

/-- **A socket whose future was dropped is never destroyed**, whatever happens later. -/
theorem leaked_forever {allowed : Policy Shared Thread Choice} {init : Config Shared Thread}
    (h0 : total Thread.owner init.threads = 0 ∧ init.shared.native.socket = .live)
    (h : Reachable step allowed init c) :
    total Thread.owner c.threads = 0 ∧ c.shared.native.socket = .live :=
  h.invariant (P := fun c => total Thread.owner c.threads = 0 ∧ c.shared.native.socket = .live)
    h0 (fun _ hi hs => leaked_step hi hs)

/-! ## Runs -/

/-- `NetworkJoined` as a test. -/
def networkJoined (c : Listed Shared Thread) (t : Thread) (_ : Choice) : Bool :=
  !(t == .network && c.shared.native.stopped) &&
    match t with
    | .engine (.nativeStop _) => c.threads.contains .network
    | _ => true

theorem networkJoined_sound (c : Listed Shared Thread) (t : Thread) (ch : Choice)
    (h : networkJoined c t ch = true) : NetworkJoined c.config t ch := by
  obtain ⟨hnetwork, hidle⟩ := Bool.and_eq_true_iff.mp h
  refine ⟨?_, ?_⟩
  · rintro rfl
    change c.shared.native.stopped = false
    simpa using hnetwork
  · rintro r code rfl - -
    have hmem : Thread.network ∈ c.threads := by simpa using hidle
    exact Multiset.mem_coe.mpr hmem

/-- `FutureKept` as a test. -/
def futureKept (c : Listed Shared Thread) (t : Thread) (ch : Choice) : Bool :=
  networkJoined c t ch && !(t == .opening .await && ch == .drop)

theorem futureKept_sound (c : Listed Shared Thread) (t : Thread) (ch : Choice)
    (h : futureKept c t ch = true) : FutureKept c.config t ch := by
  obtain ⟨hjoined, hawait⟩ := Bool.and_eq_true_iff.mp h
  refine ⟨networkJoined_sound c t ch hjoined, ?_⟩
  rintro rfl rfl
  cases hawait

/-- The connection is opened, dropped, and everything is given back. -/
theorem socket_given_back_dropped :
    let c := (Pool.play step futureKept start (opens ++ drops)).config
    c.shared.native.socket = .gone ∧ total Thread.arcs c.threads = 0 ∧
      c.shared.engine.active = 0 ∧ GivenBack c := by
  refine ⟨by decide +kernel, by decide +kernel, by decide +kernel, ?_⟩
  exact socket_given_back (play_reachable futureKept_sound (opens ++ drops) Reachable.start)

/-- The future is dropped while it waits for the connection. -/
def abandoned : Schedule :=
  connects ++ [(.opening .await, [.drop]), (.releaseArc, go 1),
    (.engine .releaseArc, [.engine .go])]

theorem socket_leaked :
    ∃ c, Reachable step NetworkJoined start.config c ∧ c.shared.trace.count .created = 1 ∧
      c.shared.trace.count .destroyed = 0 ∧ total Thread.owner c.threads = 0 ∧
      total Thread.arcs c.threads = 0 ∧ c.shared.rawArc = 1 ∧
      c.shared.context.operation = true ∧ ¬ GivenBack c := by
  refine ⟨(Pool.play step networkJoined start abandoned).config,
    play_reachable networkJoined_sound abandoned Reachable.start, by decide +kernel,
    by decide +kernel, by decide +kernel, by decide +kernel, by decide +kernel,
    by decide +kernel, ?_⟩
  intro hback
  have hsame := (hback.nothing (by decide +kernel) (by decide +kernel)).1
  revert hsame
  decide +kernel

end TokioCronet.WebSocket
