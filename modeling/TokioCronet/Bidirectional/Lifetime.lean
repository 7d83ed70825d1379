import TokioCronet.Lib.Trace
import TokioCronet.Bidirectional.Abandoned

/-!
# The life of the native stream

The cleanup task destroys the stream, or `open` when it gives up. Whoever calls a native
function either owns the stream or has found the pointer set under the gate, and `destroy`
clears the pointer under the gate. So there is nothing to ask of the callbacks here, which
call native functions under the gate only.
-/

namespace TokioCronet.Bidirectional

open Pool

variable {cfg : Settings} {s s' : Shared} {t u : Thread} {ch : Choice} {ts : List Thread}

/-! ## Where the events come from -/

/-- The native calls on the stream, and what `open` reads once it is started. -/
def Event.onStream : Event → Bool
  | .configure | .start | .started | .cancel | .read | .write _ _ | .flush | .destroy
  | .cancelRead _ => true
  | _ => false

/-- The thread that an event on the stream comes from. -/
def Event.Cause (s : Shared) (t : Thread) : Event → Prop
  | .configure => t = .openStream .configure
  | .start => t = .openStream .start
  | .started => t = .openStream .startReturn
  | .cancelRead requested => t = .openStream .loadCancel ∧ requested = s.control.cancelRequested
  | .cancel => ∃ who, t = .control (.call (.cancel who))
  | .read => ∃ sender, t = .control (.call (.startRead sender))
  | .write data eos => t = .control (.call (.write data eos))
  | .flush => ∃ waiter, t = .control (.call (.flush waiter))
  | .destroy => ∃ why, t = .cleanup (.destroy why)
  | _ => False

/-- What a step adds to the trace. -/
def Caused (s : Shared) (t : Thread) (s' : Shared) : Prop :=
  ∃ l, s'.trace = s.trace ++ l ∧
    ((∀ e ∈ l, e.onStream = false) ∨ ∃ e, l = [e] ∧ e.Cause s t)

theorem Caused.none (h : s'.trace = s.trace) : Caused s t s' :=
  ⟨[], h.trans (List.append_nil _).symm, .inl (List.forall_mem_nil _)⟩

theorem Caused.one {e : Event} (h : s'.trace = s.trace ++ [e]) (he : e.Cause s t) :
    Caused s t s' := ⟨[e], h, .inr ⟨e, rfl, he⟩⟩

theorem Caused.aside {e : Event} (h : s'.trace = s.trace ++ [e]) (he : e.onStream = false) :
    Caused s t s' := ⟨[e], h, .inl (List.forall_mem_singleton.mpr he)⟩

theorem answers_aside (waiters : List Waiter) (result : Result Unit) :
    ∀ e ∈ waiters.map fun waiter => Event.answered waiter result, e.onStream = false := by
  intro e he
  obtain ⟨waiter, -, rfl⟩ := List.mem_map.mp he
  rfl

/-- **A step causes at most one event on the stream.** -/
theorem step_caused (h : step cfg s t ch = some (s', ts)) : Caused s t s' := by
  revert h
  cases t <;> simp only [step]
  case outside who =>
    fun_cases outsideStep s who ch <;> intro h
    case case1 c _ =>
      obtain ⟨native, -, heq⟩ := Option.map_eq_some_iff.mp h
      cases heq
      exact .aside rfl rfl
    all_goals
      cases h
      try exact .none rfl
  case openStream p =>
    fun_cases openStep cfg s p ch <;> first | exact of_none | apply of_some
    all_goals first
      | exact .none rfl
      | exact .one rfl rfl
      | exact .one rfl ⟨rfl, Eq.symm ‹_›⟩
      | exact .one rfl ⟨rfl, (Bool.eq_false_iff.mpr ‹_›).symm⟩
  case shutdown p =>
    fun_cases shutdownStep s p ch <;> first | exact of_none | (apply of_some; exact .none rfl)
  case control p =>
    fun_cases controlStep s p ch <;> first | exact of_none | apply of_some
    all_goals first
      | exact .none rfl
      | exact .one rfl rfl
      | exact .one rfl ⟨_, rfl⟩
  case callback p =>
    fun_cases callbackStep cfg s p ch <;> first | exact of_none | apply of_some
    all_goals first
      | exact .none rfl
      | exact .none (wake_kept s).2.2
      | exact ⟨_, rfl, .inl (answers_aside _ _)⟩
  case terminal p =>
    fun_cases terminalStep s p ch <;> first | exact of_none | apply of_some
    all_goals first
      | exact .none rfl
      | exact .aside rfl rfl
  case finish p =>
    fun_cases finishStep s p ch <;> first | exact of_none | apply of_some
    case case1 who result =>
      refine ⟨_, List.append_assoc _ _ _, .inl fun e he => ?_⟩
      rcases List.mem_append.mp he with he | he
      · exact answers_aside _ _ e he
      · rw [List.mem_singleton.mp he]
        rfl
    all_goals first
      | exact .none rfl
      | exact .none (wake_kept s).2.2
  case task p =>
    fun_cases taskStep cfg s p ch <;> first | exact of_none | apply of_some
    all_goals first
      | exact .none rfl
      | exact .none (releaseArc_kept s).2.2
      | exact .aside rfl rfl
  case writer p =>
    fun_cases writerStep s p ch <;> first | exact of_none | apply of_some
    all_goals first
      | exact .none rfl
      | exact .aside rfl rfl
  case stream p =>
    fun_cases streamStep cfg s p ch <;> first | exact of_none | apply of_some
    all_goals first
      | exact .none rfl
      | exact .aside rfl rfl
  case cleanup p =>
    fun_cases cleanupStep s p ch <;> first | exact of_none | apply of_some
    all_goals first
      | exact .none rfl
      | exact .none (releaseArc_kept s).2.2
      | exact .one rfl ⟨_, rfl⟩

/-- An event on the stream was there, or the thread that moves causes it. -/
theorem mem_of_step (h : step cfg s t ch = some (s', ts)) {e : Event} (he : e.onStream = true)
    (hmem : e ∈ s'.trace) : e ∈ s.trace ∨ e.Cause s t := by
  obtain ⟨l, heq, hl⟩ := step_caused h
  rw [heq, List.mem_append] at hmem
  rcases hmem with hmem | hmem
  · exact .inl hmem
  · rcases hl with haside | ⟨e', rfl, hcause⟩
    · rw [haside e hmem] at he
      contradiction
    · rw [List.mem_singleton.mp hmem]
      exact .inr hcause

theorem trace_subset (h : step cfg s t ch = some (s', ts)) {e : Event} (he : e ∈ s.trace) :
    e ∈ s'.trace := by
  obtain ⟨l, heq, -⟩ := step_caused h
  rw [heq]
  exact List.mem_append_left l he

/-! ## The owner -/

/-- Which gated operations own the native stream. -/
def GatedOp.owner : GatedOp → Nat
  | .cancel .registering | .cancel .started => 1
  | _ => 0

/-- The call of `open` up to its cleanup task, and whoever drops the native stream. -/
def Thread.owner : Thread → Nat
  | .openStream .ready | .openStream (.close _) | .openStream (.returned _) => 0
  | .openStream _ => 1
  | .control (.store who) => (GatedOp.cancel who).owner
  | .control (.lock op) | .control (.raw op) | .control (.started op) | .control (.done op)
  | .control (.claim op) | .control (.call op) | .control (.unlock op _) => op.owner
  | .cleanup (.unlock _) | .cleanup (.context _) => 0
  | .cleanup _ => 1
  | _ => 0

theorem after_owner (op : GatedOp) (e : Option Error) :
    ((op.after e).map Thread.owner).sum = op.owner := by
  fun_cases GatedOp.after op e <;> rfl

/-- What owns the stream comes from what owned it. -/
theorem step_passes (h : step cfg s t ch = some (s', ts)) :
    (ts.map Thread.owner).sum ≤ t.owner := by
  revert h
  cases t <;> simp only [step]
  case outside who =>
    fun_cases outsideStep s who ch <;> intro h
    case case1 c _ =>
      obtain ⟨native, -, heq⟩ := Option.map_eq_some_iff.mp h
      cases heq
      exact le_rfl
    all_goals
      cases h
      try exact le_rfl
  case openStream p =>
    fun_cases openStep cfg s p ch <;> first | exact of_none | apply of_some
    all_goals first
      | exact le_rfl
      | exact Nat.zero_le _
  case shutdown p =>
    fun_cases shutdownStep s p ch <;> first | exact of_none | (apply of_some; exact le_rfl)
  case control p =>
    fun_cases controlStep s p ch <;> first | exact of_none | apply of_some
    all_goals first
      | exact le_rfl
      | exact (after_owner _ _).le
  case callback p =>
    fun_cases callbackStep cfg s p ch <;> first | exact of_none | apply of_some
    case case1 c => cases c <;> exact le_rfl
    all_goals exact le_rfl
  case terminal p =>
    fun_cases terminalStep s p ch <;> first | exact of_none | (apply of_some; exact le_rfl)
  case finish p =>
    fun_cases finishStep s p ch <;> first | exact of_none | apply of_some
    case case3 who result => cases who <;> exact le_rfl
    all_goals exact le_rfl
  case task p =>
    fun_cases taskStep cfg s p ch <;> first | exact of_none | (apply of_some; exact le_rfl)
  case writer p =>
    fun_cases writerStep s p ch <;> first | exact of_none | (apply of_some; exact le_rfl)
  case stream p =>
    fun_cases streamStep cfg s p ch <;> first | exact of_none | (apply of_some; exact le_rfl)
  case cleanup p =>
    fun_cases cleanupStep s p ch <;> first | exact of_none | apply of_some
    all_goals first
      | exact le_rfl
      | exact Nat.zero_le _

/-- The stream is passed on, leaked or destroyed. -/
theorem step_owner (h : step cfg s t ch = some (s', ts)) :
    s'.trace.count .destroy + (ts.map Thread.owner).sum ≤ s.trace.count .destroy + t.owner := by
  have hpasses := step_passes h
  obtain ⟨l, heq, hl⟩ := step_caused h
  rw [heq, List.count_append]
  by_cases hmem : .destroy ∈ l
  · rcases hl with haside | ⟨e, rfl, hcause⟩
    · cases haside _ hmem
    · obtain rfl := (List.mem_singleton.mp hmem).symm
      obtain ⟨why, rfl⟩ := hcause
      cases ch <;> cases h
      exact le_rfl
  · rw [List.count_eq_zero.mpr hmem]
    omega

/-! ## Annotations -/

/-- The pointer was found set under the gate. -/
def Control.Sound (raw : Bool) : Control → Prop
  | .started _ | .done _ | .claim _ | .call _ => raw = true
  | _ => True

/-- It is cleared before the stream is destroyed. -/
def Cleanup.Sound (raw : Bool) : Cleanup → Prop
  | .destroy _ => raw = false
  | _ => True

/-- The thread is where it can be with the pointer as it is. -/
def Sound (s : Shared) : Thread → Prop
  | .control p => p.Sound s.control.raw
  | .cleanup p => p.Sound s.control.raw
  | _ => True

theorem after_sound (op : GatedOp) (e : Option Error) : ∀ u ∈ op.after e, Sound s u := by
  fun_cases GatedOp.after op e <;> simp [Sound, Cleanup.Sound]

theorem step_sound (h : step cfg s t ch = some (s', ts)) (ht : Sound s t) :
    ∀ u ∈ ts, Sound s' u := by
  revert h ht
  cases t <;> simp only [step]
  case outside who =>
    fun_cases outsideStep s who ch <;> intro h ht
    case case1 c _ =>
      obtain ⟨native, -, heq⟩ := Option.map_eq_some_iff.mp h
      cases heq
      simp [Sound]
    all_goals cases h <;> simp [Sound, Control.Sound]
  case openStream p =>
    fun_cases openStep cfg s p ch <;> first | exact of_none | apply of_some
    all_goals
      intro ht
      first
        | exact List.forall_mem_singleton.mpr trivial
        | simp [Sound, Cleanup.Sound]
  case shutdown p =>
    fun_cases shutdownStep s p ch <;> first | exact of_none | apply of_some
    all_goals
      intro ht
      simp [Sound, Control.Sound]
  case control p =>
    fun_cases controlStep s p ch <;> first | exact of_none | apply of_some
    all_goals
      intro ht
      first
        | exact after_sound _ _
        | exact List.forall_mem_singleton.mpr trivial
        | exact List.forall_mem_singleton.mpr ht
        | exact List.forall_mem_singleton.mpr ‹_›
  case callback p =>
    fun_cases callbackStep cfg s p ch <;> first | exact of_none | (apply of_some; intro ht)
    case case1 c => cases c <;> simp [Callback.body, Sound]
    all_goals first
      | exact List.forall_mem_singleton.mpr trivial
      | simp [Sound, Control.Sound]
  case terminal p =>
    fun_cases terminalStep s p ch <;> first | exact of_none | apply of_some
    all_goals
      intro ht
      first
        | exact List.forall_mem_singleton.mpr trivial
        | simp [Sound]
  case finish p =>
    fun_cases finishStep s p ch <;> first | exact of_none | (apply of_some; intro ht)
    case case3 who result => cases who <;> exact List.forall_mem_singleton.mpr trivial
    all_goals exact List.forall_mem_singleton.mpr trivial
  case task p =>
    fun_cases taskStep cfg s p ch <;> first | exact of_none | apply of_some
    all_goals
      intro ht
      first
        | exact List.forall_mem_singleton.mpr trivial
        | simp [Sound]
  case writer p =>
    fun_cases writerStep s p ch <;> first | exact of_none | apply of_some
    all_goals
      intro ht
      first
        | exact List.forall_mem_singleton.mpr trivial
        | simp [Sound]
  case stream p =>
    fun_cases streamStep cfg s p ch <;> first | exact of_none | apply of_some
    all_goals
      intro ht
      first
        | exact List.forall_mem_singleton.mpr trivial
        | simp [Sound]
  case cleanup p =>
    fun_cases cleanupStep s p ch <;> first | exact of_none | apply of_some
    all_goals
      intro ht
      first
        | exact List.forall_mem_singleton.mpr trivial
        | exact List.forall_mem_singleton.mpr ht
        | exact List.forall_mem_singleton.mpr rfl

/-- Nobody else sets the pointer, and nobody clears it while the gate is held. -/
theorem sound_other (h : step cfg s t ch = some (s', ts)) (hu : Sound s u)
    (hgate : t.gate + u.gate ≤ 1) (howner : t.owner + u.owner ≤ 1) : Sound s' u := by
  have hraw := (step_frame h).raw
  have hset : u.gate = 1 → s.control.raw = true → s'.control.raw = true := by
    intro hone hraw'
    rcases hraw with heq | ⟨-, hset⟩ | ⟨why, rfl⟩
    · exact heq.trans hraw'
    · exact hset
    · have hgate' : Thread.gate (.cleanup (.raw why)) = 1 := rfl
      omega
  cases u with
  | control p =>
    cases p with
    | started op | done op | claim op | call op => exact hset rfl hu
    | _ => trivial
  | cleanup p =>
    cases p with
    | destroy why =>
      rcases hraw with heq | ⟨rfl, -⟩ | ⟨why', rfl⟩
      · exact heq.trans hu
      · exact absurd (show 2 ≤ 1 from howner) (by decide)
      · exact absurd (show 2 ≤ 1 from hgate) (by decide)
    | _ => trivial
  | _ => trivial

/-! ## The invariant -/

variable {allowed : Policy Shared Thread Choice} {c c' : Config Shared Thread}

/-- The native stream has one owner, and is destroyed once. -/
structure LifetimeInv (c : Config Shared Thread) : Prop where
  /-- There is one owner, until the stream is destroyed. -/
  owner : c.shared.trace.count .destroy + total Thread.owner c.threads ≤ 1
  /-- The threads stand where they can. -/
  sound : ∀ t ∈ c.threads, Sound c.shared t
  /-- A stream that is destroyed has no pointer. -/
  raw : .destroy ∈ c.shared.trace → c.shared.control.raw = false

/-- Who owns the stream finds it undestroyed. -/
theorem LifetimeInv.undestroyed (hi : LifetimeInv c) (ht : t ∈ c.threads) (ho : t.owner = 1) :
    .destroy ∉ c.shared.trace := by
  intro hd
  have hcount := List.count_pos_iff.mpr hd
  have hle : t.owner ≤ total Thread.owner c.threads := le_total ht
  have howner := hi.owner
  omega

theorem lifetimeInv_init : LifetimeInv start.config where
  owner := by simp [start, Listed.config, Thread.owner]
  sound := by simp [start, Listed.config, Sound]
  raw := by simp [start, Listed.config]

theorem lifetimeInv_step (ha : AbandonInv c) (hi : LifetimeInv c)
    (hs : Step (step cfg) allowed c c') : LifetimeInv c' := by
  obtain ⟨_, hn⟩ := hs
  rename_i s s' t ts rest ch _
  have hmem : t ∈ t ::ₘ rest := Multiset.mem_cons_self t rest
  have hsound := hi.sound t hmem
  have hgate : total Thread.gate (t ::ₘ rest) ≤ 1 := by
    have hgate := ha.gate
    have hle := s.control.gate.toNat_le
    dsimp only at hgate
    omega
  have howner : total Thread.owner (t ::ₘ rest) ≤ 1 := by
    have howner := hi.owner
    dsimp only at howner
    omega
  refine ⟨budget_step hi.owner (step_owner hn), ?_, ?_⟩
  · refine forall_step hi.sound (step_sound hn) fun u hu hsu => ?_
    exact sound_other hn hsu ((add_le_total hu).trans hgate) ((add_le_total hu).trans howner)
  · intro hd
    rcases mem_of_step hn rfl hd with hd | ⟨why, rfl⟩
    · rcases (step_frame hn).raw with heq | ⟨rfl, -⟩ | ⟨why, rfl⟩
      · exact heq.trans (hi.raw hd)
      · exact absurd hd (hi.undestroyed hmem rfl)
      · cases ch <;> cases hn
        rfl
    · cases ch <;> cases hn
      exact hsound

theorem lifetimeInv_reachable (h : Reachable (step cfg) allowed start.config c) :
    LifetimeInv c := by
  induction h with
  | refl => exact lifetimeInv_init
  | tail hr hs ih => exact lifetimeInv_step (abandonInv_reachable hr) ih hs

/-! ## No native call on a destroyed stream -/

/-- The native functions that take the pointer of the stream. -/
def Event.usesStream : Event → Bool
  | .configure | .start | .cancel | .read | .write _ _ | .flush => true
  | _ => false

theorem onStream_of_uses {e : Event} (h : e.usesStream = true) : e.onStream = true := by
  cases e <;> first | rfl | cases h

/-- Whoever calls a native function owns the stream, or holds the gate while the pointer is
set. -/
theorem undestroyed_of_uses {e : Event} (hi : LifetimeInv c) (ht : t ∈ c.threads)
    (hcause : e.Cause c.shared t) (huses : e.usesStream = true) : .destroy ∉ c.shared.trace := by
  have hsound := hi.sound t ht
  have hgated : c.shared.control.raw = true → .destroy ∉ c.shared.trace := by
    intro hraw hd
    rw [hi.raw hd] at hraw
    contradiction
  cases e with
  | configure | start =>
    cases hcause
    exact hi.undestroyed ht rfl
  | cancel | read | flush =>
    obtain ⟨_, rfl⟩ := hcause
    exact hgated hsound
  | write data eos =>
    cases hcause
    exact hgated hsound
  | _ => contradiction

/-- **A destroyed stream is left alone.** No native function is called on the stream after it
was destroyed, and it is destroyed at most once. -/
theorem stream_use_before_destroy (h : Reachable (step cfg) allowed start.config c) :
    Trace.Bars (· = .destroy) (·.usesStream = true) c.shared.trace ∧
      c.shared.trace.count .destroy ≤ 1 := by
  have howner := (lifetimeInv_reachable h).owner
  refine ⟨?_, by omega⟩
  clear howner
  induction h with
  | refl => exact Trace.bars_nil
  | tail hr hs ih =>
    have hi := lifetimeInv_reachable hr
    obtain ⟨ha, hn⟩ := hs
    rename_i s s' t ts rest ch
    obtain ⟨l, heq, haside | ⟨e, rfl, hcause⟩⟩ := step_caused hn
    · rw [heq]
      refine ih.quiet fun e he huses => ?_
      have hon := onStream_of_uses huses
      rw [haside e he] at hon
      cases hon
    · rw [heq]
      refine ih.append fun huses a hmem ha => ?_
      subst ha
      exact undestroyed_of_uses hi (Multiset.mem_cons_self t rest) hcause huses hmem

end TokioCronet.Bidirectional
