import TokioCronet.Engine.Slot
import TokioCronet.WebSocket.Moves

/-!
# Who owns the native socket

The call of `open_websocket` passes the native socket to the `WebSocket` and that to its
drop, so at most one thread has it in hand. What that thread may rely on is fixed by
where it stands: nobody else writes the pointer of the control, the callbacks of the
native object or its lifetime. A future dropped at its await point leaves the socket
without an owner, and alive.

The strong count of the context covers the `Arc` of the owner, those of the callbacks
that run, and the one that the native object keeps for its callbacks.
-/

namespace TokioCronet.WebSocket

open Pool
open Request (Lifetime)

variable {s s' : Shared} {t u : Thread} {ts : List Thread}

/-! ## Positions -/

/-- Whether the user of the engine is a socket. -/
def User.isSocket : User → Nat
  | .socket => 1
  | .other => 0

/-- A call of `begin_operation` for this socket. -/
def calling : Engine.Thread User → Nat
  | .beginLoad k | .beginLock k | .beginCheck k | .beginNative k | .beginCount k
  | .beginUnlock k | .admitted k => k.isSocket
  | _ => 0

/-- `register` cancels inside `open_websocket`. -/
def Canceler.owner : Canceler → Nat
  | .registering => 1
  | .shutdown => 0

/-- A callback inside a call returns to it. -/
def Caller.owner : Caller → Nat
  | .network _ => 0
  | .connect | .socket => 1

/-- The socket, or the call that will make it. -/
def Thread.owner : Thread → Nat
  | .engine t => calling t
  | .opening _ | .socket _ | .destroy _ => 1
  | .cancel (.load who) | .cancel (.close who) => who.owner
  | .callback _ caller => caller.owner
  | _ => 0

/-- Where the owner stands. -/
inductive Stage where
  /-- Before `begin_operation` has returned. -/
  | calls
  | creates
  /-- Up to `SetCallbacks`, or refused. -/
  | made (published listed : Bool)
  /-- After `SetCallbacks`. -/
  | attached (published listed : Bool)
  deriving DecidableEq

/-- How far an opening has come. -/
def Open.stage : Open → Stage
  | .create => .creates
  | .setNative => .made false false
  | .registerPush => .made true false
  | .registerLoad | .setCallbacks => .made true true
  | .connect | .await => .attached true true

/-- How far an opening had come that is given up. -/
def Destroyer.stage (published : Bool) : Destroyer → Stage
  | .refused => .made published true
  | .failed _ | .handle => .attached published true

/-- How far it had come while the socket is destroyed. -/
def Destroy.stage : Destroy → Stage
  | .clear who => who.stage true
  | .post who _ | .wait who _ | .delete who => who.stage false

/-- How far it has come for a thread. -/
def Thread.stage : Thread → Stage
  | .opening p => p.stage
  | .cancel _ => .made true true
  | .destroy p => p.stage
  | .socket _ | .callback _ _ => .attached true true
  | _ => .calls

/-- An `Arc<WsContext>` of the owner, before it is given back. -/
def Stage.arcs : Stage → Nat
  | .calls | .creates => 0
  | .made _ _ | .attached _ _ => 1

/-- `context_from` gives a callback an `Arc` of its own. -/
def InCallback.arcs : InCallback → Nat
  | .entered _ | .returns => 0
  | _ => 1

/-- The `Arc<WsContext>`s of a thread. -/
def Thread.arcs : Thread → Nat
  | .releaseArc => 1
  | .callback p caller => p.arcs + caller.owner
  | t => if t.owner = 0 then 0 else t.stage.arcs

/-- The `Arc` that the native object's callbacks borrow. -/
def Shared.rawArc (s : Shared) : Nat :=
  if s.native.socket = .live ∧ s.native.callbacks = true then 1 else 0

/-- A callback that has its context. -/
def Thread.called : Thread → Bool
  | .callback .returns _ => false
  | .callback _ _ => true
  | _ => false

/-! ## Frames -/

section ReleaseArc

@[simp] theorem releaseArc_engine : s.releaseArc.1.engine = s.engine := by
  unfold Shared.releaseArc; split <;> (try split) <;> rfl

@[simp] theorem releaseArc_native : s.releaseArc.1.native = s.native := by
  unfold Shared.releaseArc; split <;> (try split) <;> rfl

@[simp] theorem releaseArc_control : s.releaseArc.1.control = s.control := by
  unfold Shared.releaseArc; split <;> (try split) <;> rfl

@[simp] theorem releaseArc_registered : s.releaseArc.1.registered = s.registered := by
  unfold Shared.releaseArc; split <;> (try split) <;> rfl

end ReleaseArc

/-- The last `Arc` is not dropped while others are left. -/
theorem releaseArc_life (h : s.context.life = .live → s.context.arcs ≠ 1) :
    s.releaseArc.1.context.life = s.context.life := by
  unfold Shared.releaseArc
  split
  · rename_i hl
    rw [if_neg (h hl)]
  · rfl

/-- It takes the operation only with the context. -/
theorem releaseArc_operation (h : s.context.life ≠ .live) : s.releaseArc = (s, []) :=
  if_neg h

theorem releaseArc_unborn : s.releaseArc.1.context.life = .unborn ↔ s.context.life = .unborn := by
  unfold Shared.releaseArc
  split
  · rename_i hl
    split
    · simp [hl]
    · rfl
  · rfl

/-- A thread without the socket leaves what its owner relies on alone. -/
theorem Move.frame (hm : Move s t s' ts) (ht : t.owner = 0) :
    s'.native.socket = s.native.socket ∧ s'.native.callbacks = s.native.callbacks ∧
      s'.control = s.control ∧ s'.registered = s.registered := by
  cases hm <;> first
    | exact ⟨rfl, rfl, rfl, rfl⟩
    | (simp [Thread.owner] at ht; done)
    | simp

/-- What is left to `open_websocket` is never made by anybody else. -/
theorem engine_calling {e e' : Engine.Shared} {t : Engine.Thread User}
    {ch : Engine.Choice User} {ts : List (Engine.Thread User)}
    (h : Engine.step e t ch = some (e', ts)) (hc : t = .handle → ch ≠ .beginOperation .socket) :
    (ts.map calling).sum ≤ calling t := by
  revert h hc
  fun_cases Engine.step e t ch <;> first | exact of_none | apply of_some
  all_goals
    intro hc
    simp [calling]
  case case3 k => cases k <;> simp_all [User.isSocket]
  all_goals first | omega | (split <;> simp [calling])

theorem map_engine_owner {ts : List (Engine.Thread User)} :
    ((ts.map Thread.engine).map Thread.owner).sum = (ts.map calling).sum := by
  rw [List.map_map]
  rfl

theorem mem_operationDrop (h : u ∈ s.operationDrop) : u = .engine .dropOperation := by
  unfold Shared.operationDrop at h
  split at h
  · exact List.mem_singleton.mp h
  · cases h

/-- Dropping an `Arc` starts nothing but the drop of the operation. -/
theorem mem_releaseArc (h : u ∈ s.releaseArc.2) : u = .engine .dropOperation := by
  unfold Shared.releaseArc at h
  split at h
  · split at h
    · exact mem_operationDrop h
    · cases h
  · cases h

@[simp] theorem operationDrop_owner : (s.operationDrop.map Thread.owner).sum = 0 := by
  unfold Shared.operationDrop
  split <;> rfl

@[simp] theorem releaseArc_owner : (s.releaseArc.2.map Thread.owner).sum = 0 := by
  unfold Shared.releaseArc
  split <;> (try split) <;> simp

/-- Ownership is passed on or given up. -/
theorem Move.owner (hm : Move s t s' ts) : (ts.map Thread.owner).sum ≤ t.owner := by
  induction hm with
  | engine hn _ _ hc =>
    rw [map_engine_owner]
    exact engine_calling hn hc
  | stops hn =>
    rw [map_engine_owner]
    exact engine_calling hn (by simp)
  | admits => exact Nat.le_refl 1
  | @deletes who => cases who <;> simp [Thread.owner, Destroyer.releases, calling]
  | _ => simp [Thread.owner, Canceler.owner, Caller.owner, Destroyer.next, calling]

/-! ## What the owner relies on -/

/-- What a stage says about the state. -/
def Stage.Holds (s : Shared) : Stage → Prop
  | .calls =>
    s.native.socket = .unborn ∧ s.context.life = .unborn ∧ s.native.callbacks = false ∧
      s.control.native = false ∧ s.context.operation = false
  | .creates =>
    s.native.socket = .unborn ∧ s.context.life = .unborn ∧ s.native.callbacks = false ∧
      s.control.native = false ∧ s.context.operation = true
  | .made published listed =>
    s.native.socket = .live ∧ s.context.life = .live ∧ s.native.callbacks = false ∧
      s.control.native = published ∧ (listed = true → s.registered = true)
  | .attached published listed =>
    s.native.socket = .live ∧ s.context.life = .live ∧ s.native.callbacks = true ∧
      s.control.native = published ∧ (listed = true → s.registered = true)

/-- What a thread may rely on where it stands. -/
structure Stands (s : Shared) (t : Thread) : Prop where
  /-- It knows the stage of the opening. -/
  stage : t.owner = 1 → t.stage.Holds s
  /-- A callback has its context from `SetCallbacks`. -/
  called : t.called = true → s.native.callbacks = true

/-- An engine thread keeps what it relies on from its own step. -/
theorem engine_holds {t : Engine.Thread User} {us : List (Engine.Thread User)}
    (hsum : (us.map calling).sum ≤ calling t) (ht : calling t = 1 → Stage.calls.Holds s)
    {u : Thread} (hu : u ∈ us.map Thread.engine) (ho : u.owner = 1) :
    u.stage = .calls ∧ Stage.calls.Holds s := by
  obtain ⟨v, hv, rfl⟩ := List.mem_map.mp hu
  have hle : calling v ≤ total calling (us : Multiset (Engine.Thread User)) :=
    le_total (Multiset.mem_coe.mpr hv)
  rw [total_coe] at hle
  have hone : calling v = 1 := ho
  have hbound : calling t ≤ 1 := by
    cases t <;> simp [calling] <;> rename_i k <;> cases k <;> simp [User.isSocket]
  exact ⟨rfl, ht (by omega)⟩

/-- **The owner finds what it relies on after its own step.** -/
theorem Move.stage (hm : Move s t s' ts) (ht : t.owner = 1 → t.stage.Holds s)
    (harcs : s.context.life = .live → t.arcs ≤ s.context.arcs) :
    ∀ u ∈ ts, u.owner = 1 → u.stage.Holds s' := by
  intro u hu ho
  induction hm with
  | engine hn _ _ hc =>
    obtain ⟨hstage, hholds⟩ := engine_holds (engine_calling hn hc) ht hu ho
    rw [hstage]
    exact hholds
  | stops hn =>
    obtain ⟨hstage, hholds⟩ := engine_holds (engine_calling hn (by simp)) ht hu ho
    rw [hstage]
    exact hholds
  | admits =>
    obtain ⟨hsocket, hlife, hcallbacks, hnative, -⟩ := ht rfl
    obtain rfl := List.mem_singleton.mp hu
    exact ⟨hsocket, hlife, hcallbacks, hnative, rfl⟩
  | unlocks =>
    obtain rfl := List.mem_singleton.mp hu
    cases ho
  | creates =>
    obtain ⟨-, -, hcallbacks, hnative, -⟩ := ht rfl
    obtain rfl := List.mem_singleton.mp hu
    exact ⟨rfl, rfl, hcallbacks, hnative, nofun⟩
  | fails =>
    rcases List.mem_append.mp hu with hu | hu
    · rw [mem_operationDrop hu] at ho
      cases ho
    · obtain rfl := List.mem_singleton.mp hu
      cases ho
  | publishes =>
    obtain ⟨hsocket, hlife, hcallbacks, -, -⟩ := ht rfl
    obtain rfl := List.mem_singleton.mp hu
    exact ⟨hsocket, hlife, hcallbacks, rfl, nofun⟩
  | lists =>
    obtain ⟨hsocket, hlife, hcallbacks, hnative, -⟩ := ht rfl
    obtain rfl := List.mem_singleton.mp hu
    exact ⟨hsocket, hlife, hcallbacks, hnative, fun _ => rfl⟩
  | attaches =>
    obtain ⟨hsocket, hlife, -, hnative, hlisted⟩ := ht rfl
    obtain rfl := List.mem_singleton.mp hu
    exact ⟨hsocket, hlife, rfl, hnative, hlisted⟩
  | opens =>
    rcases List.mem_cons.mp hu with rfl | hu
    · exact ht rfl
    · obtain rfl := List.mem_singleton.mp hu
      cases ho
  | clears =>
    rename_i who
    obtain rfl := List.mem_singleton.mp hu
    cases who <;> obtain ⟨hsocket, hlife, hcallbacks, -, hlisted⟩ := ht rfl <;>
      exact ⟨hsocket, hlife, hcallbacks, rfl, hlisted⟩
  | @resets who again | @asks who again | @waits who again =>
    obtain rfl := List.mem_singleton.mp hu
    cases who <;> cases again <;> exact ht rfl
  | @deletes who =>
    cases who <;>
      simp only [Destroyer.releases, List.mem_cons, List.not_mem_nil, or_false] at hu <;>
      rcases hu with rfl | rfl | rfl <;> cases ho
  | takes =>
    rcases List.mem_append.mp hu with hu | hu
    · rw [mem_operationDrop hu] at ho
      cases ho
    · obtain rfl := List.mem_singleton.mp hu
      exact ht ho
  | lets =>
    rcases List.mem_append.mp hu with hu | hu
    · rw [mem_releaseArc hu] at ho
      cases ho
    · obtain rfl := List.mem_singleton.mp hu
      obtain ⟨hsocket, hlife, hcallbacks, hnative, hlisted⟩ := ht ho
      refine ⟨?_, ?_, ?_, ?_, ?_⟩
      · rw [releaseArc_native]
        exact hsocket
      · -- the owner still has its own
        rw [releaseArc_life]
        · exact hlife
        · intro hl
          have hle := harcs hl
          have hone : Caller.owner _ = 1 := ho
          simp only [Thread.arcs, InCallback.arcs] at hle
          omega
      · rw [releaseArc_native]
        exact hcallbacks
      · rw [releaseArc_control]
        exact hnative
      · rw [releaseArc_registered]
        exact hlisted
  | gives =>
    rw [mem_releaseArc hu] at ho
    cases ho
  | leaks =>
    simp only [List.mem_cons, List.not_mem_nil, or_false] at hu
    rcases hu with rfl | rfl <;> cases ho
  | returnsNetwork | misses | loadsNull | closes | runsConnect | runsDestroy | runs | finds =>
    obtain rfl := List.mem_singleton.mp hu
    cases ho
  | faults | event =>
    obtain rfl := List.mem_singleton.mp hu
    cases ho
  | returnsConnect | returnsSocket | receives | ends | begins =>
    obtain rfl := List.mem_singleton.mp hu
    exact ht rfl
  | refuses | accepts | connects | unstarted | rejects | drops | sendFails | calls | declines |
      closesRefused =>
    obtain rfl := List.mem_singleton.mp hu
    exact ht rfl
  | loads | ignores | enters | answers | delivers | finishes =>
    obtain rfl := List.mem_singleton.mp hu
    exact ht ho

theorem Move.called (hm : Move s t s' ts) (ht : t.called = true → s.native.callbacks = true) :
    ∀ u ∈ ts, u.called = true → s'.native.callbacks = true := by
  intro u hu hc
  have hnotify : ∀ (c : Callback) (caller : Caller), u = .callback (s.notify c) caller →
      s.native.callbacks = true := by
    rintro c caller rfl
    unfold Shared.notify at hc
    split at hc
    · assumption
    · cases hc
  induction hm with
  | engine | stops =>
    obtain ⟨v, -, rfl⟩ := List.mem_map.mp hu
    cases hc
  | unstarted | sendFails | faults | event => exact hnotify _ _ (List.mem_singleton.mp hu)
  | enters | answers | delivers | finishes => exact ht rfl
  | takes => exact ht rfl
  | lets =>
    rw [releaseArc_native]
    exact ht rfl
  | gives =>
    rw [mem_releaseArc hu] at hc
    cases hc
  | fails =>
    rcases List.mem_append.mp hu with hu | hu
    · rw [mem_operationDrop hu] at hc
      cases hc
    · obtain rfl := List.mem_singleton.mp hu
      cases hc
  | @deletes who =>
    cases who <;>
      simp only [Destroyer.releases, List.mem_cons, List.not_mem_nil, or_false] at hu <;>
      rcases hu with rfl | rfl | rfl <;> cases hc
  | opens | leaks =>
    simp only [List.mem_cons, List.not_mem_nil, or_false] at hu
    rcases hu with rfl | rfl <;> cases hc
  | _ =>
    obtain rfl := List.mem_singleton.mp hu
    cases hc

/-! ## What the others leave alone -/

theorem Move.callbacks (hm : Move s t s' ts) (h : s.native.callbacks = true) :
    s'.native.callbacks = true := by
  induction hm with
  | lets | gives =>
    rw [releaseArc_native]
    exact h
  | attaches => rfl
  | _ => exact h

/-- A thread without the socket ends the context's life only with the last `Arc`. -/
theorem Move.life (hm : Move s t s' ts) (ht : t.owner = 0) :
    s'.context.life = s.context.life ∨
      s.context.life = .live ∧ s.context.arcs = 1 ∧ t.arcs = 1 := by
  have hrelease : t.arcs = 1 → s.releaseArc.1.context.life = s.context.life ∨
      s.context.life = .live ∧ s.context.arcs = 1 ∧ t.arcs = 1 := by
    intro harcs
    by_cases h : s.context.life = .live ∧ s.context.arcs = 1
    · exact .inr ⟨h.1, h.2, harcs⟩
    · exact .inl (releaseArc_life (fun hl ha => h ⟨hl, ha⟩))
  induction hm with
  | @lets caller =>
    refine hrelease ?_
    have hcaller : caller.owner = 0 := ht
    simp [Thread.arcs, InCallback.arcs, hcaller]
  | gives => exact hrelease rfl
  | creates | fails => cases ht
  | _ => exact .inl rfl

/-- A thread without the socket takes the operation in a callback, or with the context. -/
theorem Move.operation (hm : Move s t s' ts) (ht : t.owner = 0) :
    s'.context.operation = s.context.operation ∨
      s'.context.operation = false ∧ (t.called = true ∨ s.context.life = .live) := by
  have hrelease : s.releaseArc.1.context.operation = s.context.operation ∨
      s.releaseArc.1.context.operation = false ∧ s.context.life = .live := by
    unfold Shared.releaseArc
    split
    · rename_i hl
      split
      · exact .inr ⟨rfl, hl⟩
      · exact .inl rfl
    · exact .inl rfl
  induction hm with
  | takes => exact .inr ⟨rfl, .inl rfl⟩
  | lets | gives =>
    rcases hrelease with heq | ⟨heq, hl⟩
    · exact .inl heq
    · exact .inr ⟨heq, .inr hl⟩
  | admits => cases ht
  | fails => cases ht
  | _ => exact .inl rfl

/-- The stage of the owner survives the steps of the others. -/
theorem Stage.Holds.other {k : Stage} (h : k.Holds s) (hm : Move s t s' ts) (ht : t.owner = 0)
    (hcalled : t.called = true → s.native.callbacks = true)
    (harcs : s.context.life = .live → t.arcs + k.arcs ≤ s.context.arcs) : k.Holds s' := by
  obtain ⟨hsocket, hcallbacks, hcontrol, hregistered⟩ := hm.frame ht
  have hborn : s.context.life = .unborn → s'.context.life = .unborn := by
    intro hl
    rcases hm.life ht with heq | ⟨hlive, -, -⟩
    · rw [heq]
      exact hl
    · rw [hl] at hlive
      cases hlive
  have hlive : s.context.life = .live → k.arcs = 1 → s'.context.life = .live := by
    intro hl hk
    rcases hm.life ht with heq | ⟨-, hone, htone⟩
    · rw [heq]
      exact hl
    · have hle := harcs hl
      omega
  have hkept : s.native.callbacks = false → s.context.life = .unborn →
      s'.context.operation = s.context.operation := by
    intro hc hl
    rcases hm.operation ht with heq | ⟨-, hcall | hlive⟩
    · exact heq
    · rw [hcalled hcall] at hc
      cases hc
    · rw [hl] at hlive
      cases hlive
  cases k with
  | calls =>
    obtain ⟨h1, h2, h3, h4, h5⟩ := h
    exact ⟨hsocket ▸ h1, hborn h2, hcallbacks ▸ h3, hcontrol ▸ h4, hkept h3 h2 ▸ h5⟩
  | creates =>
    obtain ⟨h1, h2, h3, h4, h5⟩ := h
    exact ⟨hsocket ▸ h1, hborn h2, hcallbacks ▸ h3, hcontrol ▸ h4, hkept h3 h2 ▸ h5⟩
  | made published listed =>
    obtain ⟨h1, h2, h3, h4, h5⟩ := h
    exact ⟨hsocket ▸ h1, hlive h2 rfl, hcallbacks ▸ h3, hcontrol ▸ h4, hregistered ▸ h5⟩
  | attached published listed =>
    obtain ⟨h1, h2, h3, h4, h5⟩ := h
    exact ⟨hsocket ▸ h1, hlive h2 rfl, hcallbacks ▸ h3, hcontrol ▸ h4, hregistered ▸ h5⟩

/-! ## The ledger of the strong count -/

@[simp] theorem arcs_engine {v : Engine.Thread User} : (Thread.engine v).arcs = 0 := by
  change (if calling v = 0 then 0 else 0) = 0
  exact ite_self 0

theorem map_engine_arcs {us : List (Engine.Thread User)} :
    ((us.map Thread.engine).map Thread.arcs).sum = 0 := by
  induction us with
  | nil => rfl
  | cons v us ih =>
    rw [List.map_cons, List.map_cons, List.sum_cons, ih, arcs_engine]

@[simp] theorem operationDrop_arcs : (s.operationDrop.map Thread.arcs).sum = 0 := by
  unfold Shared.operationDrop
  split <;> simp

@[simp] theorem releaseArc_arcs : (s.releaseArc.2.map Thread.arcs).sum = 0 := by
  unfold Shared.releaseArc
  split <;> (try split) <;> simp

/-- Dropping an `Arc` gives back one, unless the context is gone by then. -/
theorem releaseArc_count (h : s.releaseArc.1.context.life ≠ .gone) :
    s.context.arcs ≤ s.releaseArc.1.context.arcs + 1 := by
  unfold Shared.releaseArc at h ⊢
  split
  · split
    · rename_i hl ha
      rw [if_pos hl, if_pos ha] at h
      exact absurd rfl h
    · change s.context.arcs ≤ s.context.arcs - 1 + 1
      omega
  · exact Nat.le_succ _

theorem rawArc_congr (h1 : s'.native.socket = s.native.socket)
    (h2 : s'.native.callbacks = s.native.callbacks) : s'.rawArc = s.rawArc := by
  unfold Shared.rawArc
  rw [h1, h2]

/-- **What the strong count gains in a step covers what the threads gain.** -/
theorem Move.arcs (hm : Move s t s' ts) (ht : t.owner = 1 → t.stage.Holds s)
    (hborn : s.context.life = .unborn → s.context.arcs = 0) (hlife : s'.context.life ≠ .gone) :
    s'.rawArc + (ts.map Thread.arcs).sum + s.context.arcs ≤
      s.rawArc + t.arcs + s'.context.arcs := by
  have hraw : s'.native.socket = s.native.socket →
      s'.native.callbacks = s.native.callbacks → s'.rawArc = s.rawArc := rawArc_congr
  induction hm with
  | engine | stops =>
    rw [map_engine_arcs, hraw rfl rfl, arcs_engine]
  | creates =>
    obtain ⟨-, hl, hcallbacks, -, -⟩ := ht rfl
    have hzero := hborn hl
    simp [Shared.rawArc, Thread.arcs, Thread.owner, Thread.stage, Open.stage, Stage.arcs,
      hcallbacks, hzero]
  | fails => exact absurd rfl hlife
  | attaches =>
    obtain ⟨hsocket, -, hcallbacks, -, -⟩ := ht rfl
    simp [Shared.rawArc, Thread.arcs, Thread.owner, Thread.stage, Open.stage, Stage.arcs,
      hsocket, hcallbacks]
    omega
  | @deletes who =>
    cases who <;> obtain ⟨hsocket, -, hcallbacks, -, -⟩ := ht rfl <;>
      simp [Shared.rawArc, Thread.arcs, Thread.owner, Thread.stage, Destroy.stage,
        Destroyer.stage, Stage.arcs, Destroyer.releases, calling, hsocket, hcallbacks]
  | lets =>
    have hle := releaseArc_count hlife
    rw [hraw (by rw [releaseArc_native]) (by rw [releaseArc_native])]
    simp [Thread.arcs, InCallback.arcs]
    omega
  | gives =>
    have hle := releaseArc_count hlife
    rw [hraw (by rw [releaseArc_native]) (by rw [releaseArc_native])]
    simp [Thread.arcs]
    omega
  | @enters c =>
    rw [hraw rfl rfl]
    cases c <;> simp [Thread.arcs, InCallback.arcs, Callback.body] <;> omega
  | @answers c _ p _ _ hp =>
    rw [hraw rfl rfl, hp]
    split <;> simp [Thread.arcs, InCallback.arcs, Shared.answer]
  | @delivers c _ p _ _ hp =>
    rw [hraw rfl rfl, hp]
    split <;> simp [Thread.arcs, InCallback.arcs, Shared.trySend]
  | @resets who again | @asks who again | @waits who again =>
    rw [hraw rfl rfl]
    cases who <;> cases again <;> exact Nat.le_refl _
  | @unstarted | @sendFails | @faults | @event =>
    rw [hraw rfl rfl]
    unfold Shared.notify
    split <;> exact Nat.le_refl _
  | @clears who =>
    rw [hraw rfl rfl]
    cases who <;> exact Nat.le_refl _
  | takes =>
    rw [hraw rfl rfl, List.map_append, List.sum_append, operationDrop_arcs, Nat.zero_add]
    exact Nat.le_refl _
  | _ =>
    rw [hraw rfl rfl]
    exact Nat.le_refl _

/-! ## The invariant -/

/-- Nothing has a context that is not there yet. -/
structure Unborn (s : Shared) : Prop where
  /-- No reference to it. -/
  arcs : s.context.arcs = 0
  /-- No callbacks. -/
  callbacks : s.native.callbacks = false

theorem Move.unborn (hm : Move s t s' ts) (ht : Stands s t)
    (h : s.context.life = .unborn → Unborn s) (hl : s'.context.life = .unborn) : Unborn s' := by
  induction hm with
  | creates | fails => cases hl
  | attaches =>
    obtain ⟨-, hlive, -⟩ := ht.stage rfl
    rw [show s.context.life = .unborn from hl] at hlive
    cases hlive
  | enters =>
    have hcallbacks := (h hl).callbacks
    rw [ht.called rfl] at hcallbacks
    cases hcallbacks
  | lets | gives =>
    have hsame : s.releaseArc = (s, []) := by
      refine releaseArc_operation ?_
      rw [releaseArc_unborn.mp hl]
      nofun
    rw [hsame] at hl ⊢
    exact h hl
  | _ => exact ⟨(h hl).arcs, (h hl).callbacks⟩

/-- A context is not made again. -/
theorem Move.gone (hm : Move s t s' ts) (ht : Stands s t) (h : s.context.life = .gone) :
    s'.context.life = .gone := by
  induction hm with
  | creates =>
    obtain ⟨-, hl, -⟩ := ht.stage rfl
    rw [h] at hl
    cases hl
  | fails => rfl
  | lets | gives =>
    rw [releaseArc_operation (by rw [h]; nofun)]
    exact h
  | _ => exact h

/-- **The native socket has one owner, who knows how it stands, and the context lives as
long as anybody has it.** -/
structure OwnershipInv (c : Config Shared Thread) : Prop where
  /-- At most one thread owns the socket. -/
  owner : total Thread.owner c.threads ≤ 1
  /-- The owner knows how it stands. -/
  stands : ∀ t ∈ c.threads, Stands c.shared t
  /-- A context that is not there yet is nobody's. -/
  unborn : c.shared.context.life = .unborn → Unborn c.shared
  /-- Every thread that has the context has a reference. -/
  arcs : c.shared.context.life ≠ .gone →
    total Thread.arcs c.threads + c.shared.rawArc ≤ c.shared.context.arcs

theorem ownershipInv_init : OwnershipInv start.config where
  owner := by decide
  stands := by
    intro t ht
    refine ⟨fun _ => ?_, fun hc => ?_⟩
    · simp only [start, Listed.config, Multiset.mem_coe, List.mem_cons, List.not_mem_nil,
        or_false] at ht
      rcases ht with rfl | rfl | rfl | rfl <;> exact ⟨rfl, rfl, rfl, rfl, rfl⟩
    · simp only [start, Listed.config, Multiset.mem_coe, List.mem_cons, List.not_mem_nil,
        or_false] at ht
      rcases ht with rfl | rfl | rfl | rfl <;> cases hc
  unborn := fun _ => ⟨rfl, rfl⟩
  arcs := fun _ => by decide

variable {allowed : Policy Shared Thread Choice} {c c' : Config Shared Thread}

theorem arcs_of_owner (h : t.owner = 1) (ht : t.stage.arcs = 1) : 1 ≤ t.arcs := by
  cases t with
  | callback p caller =>
    have hcaller : caller.owner = 1 := h
    change 1 ≤ p.arcs + caller.owner
    omega
  | releaseArc => exact Nat.le_refl 1
  | _ =>
    simp only [Thread.arcs]
    rw [if_neg (by omega), ht]

theorem ownershipInv_step (hi : OwnershipInv c) (hs : Step step allowed c c') :
    OwnershipInv c' := by
  obtain ⟨_, hn⟩ := hs
  rename_i s s' t ts rest ch _
  have hm : Move s t s' ts := step_move hn
  have hself := hi.stands t (Multiset.mem_cons_self t rest)
  have hledger : s.context.life ≠ .gone →
      total Thread.arcs (t ::ₘ rest) + s.rawArc ≤ s.context.arcs := hi.arcs
  refine ⟨?_, ?_, hm.unborn hself hi.unborn, ?_⟩
  · exact passed_step hi.owner hm.owner
  · refine forall_step hi.stands ?_ ?_
    · intro _ u hu
      refine ⟨hm.stage hself.stage ?_ u hu, hm.called hself.called u hu⟩
      intro hl
      have hle := hledger (by rw [hl]; nofun)
      rw [total_cons] at hle
      omega
    · intro u hu hstands
      refine ⟨?_, fun hc => hm.callbacks (hstands.called hc)⟩
      intro ho
      -- there is no second owner
      have hone := hi.owner
      have hle := add_le_total (w := Thread.owner) (t := t) hu
      simp only at hone
      refine (hstands.stage ho).other hm (by omega) hself.called ?_
      intro hl
      change t.arcs + u.stage.arcs ≤ s.context.arcs
      have harcs := hledger (by rw [hl]; nofun)
      have hboth := add_le_total (w := Thread.arcs) (t := t) hu
      by_cases hk : u.stage.arcs = 1
      · have := arcs_of_owner ho hk
        omega
      · have hzero : u.stage.arcs = 0 := by
          generalize u.stage = k at hk ⊢
          cases k
          · rfl
          · rfl
          · exact absurd rfl hk
          · exact absurd rfl hk
        omega
  · intro hl
    have hbefore : s.context.life ≠ .gone := fun hg => hl (hm.gone hself hg)
    have hle := hledger hbefore
    have hgain := hm.arcs hself.stage (fun hu => (hi.unborn hu).arcs) hl
    change total Thread.arcs (ts + rest) + s'.rawArc ≤ s'.context.arcs
    rw [total_cons] at hle
    rw [total_add, total_coe]
    omega

theorem ownershipInv_reachable (h : Reachable step allowed start.config c) : OwnershipInv c :=
  h.invariant ownershipInv_init (fun _ hi hs => ownershipInv_step hi hs)

end TokioCronet.WebSocket
