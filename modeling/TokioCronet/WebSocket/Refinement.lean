import Mathlib.Data.Multiset.Bind
import TokioCronet.WebSocket.Ownership

/-!
# The engine under a WebSocket

Seen from the engine, a call of `open_websocket` is a reference that is still to be given
back, the operation in the context is an operation, and a shutdown that cancels has not
yet come to its cell. With that every step of the program is a step of the engine's own
program or none, and what holds of the engine in all its runs holds here.
-/

namespace TokioCronet.WebSocket

open Pool

variable {s s' : Shared} {t u : Thread} {ts : List Thread}

/-! ## The view -/

/-- What the engine sees of a canceller. -/
def Canceler.seen : Canceler → List (Engine.Thread User)
  | .shutdown => [.shutdownCell]
  | .registering => [.releaseArc]

/-- What the engine sees of who destroys a socket. -/
def Destroyer.seen : Destroyer → List (Engine.Thread User)
  | .refused | .failed _ => [.releaseArc]
  | .handle => []

/-- What the engine sees of a socket that is destroyed. -/
def Destroy.seen : Destroy → List (Engine.Thread User)
  | .clear who | .post who _ | .wait who _ | .delete who => who.seen

/-- What the engine sees of the caller of a callback. -/
def Caller.seen : Caller → List (Engine.Thread User)
  | .connect => [.releaseArc]
  | .network _ | .socket => []

/-- What the engine sees of a thread. -/
def Thread.seen : Thread → List (Engine.Thread User)
  | .engine t => [t]
  | .opening _ => [.releaseArc]
  | .snapshot => [.shutdownCell]
  | .cancel (.load who) | .cancel (.close who) => who.seen
  | .destroy p => p.seen
  | .callback _ caller => caller.seen
  | .socket _ | .network | .releaseArc => []

/-- What it sees of the context. -/
def Shared.seen (s : Shared) : List (Engine.Thread User) :=
  if s.context.operation then [.operation] else []

/-- The engine's configuration. -/
def view (c : Config Shared Thread) : Config Engine.Shared (Engine.Thread User) :=
  ⟨c.shared.engine,
    c.threads.bind (fun t => (t.seen : Multiset (Engine.Thread User))) + c.shared.seen⟩

theorem view_cons (s : Shared) (t : Thread) (rest : Multiset Thread) :
    (view ⟨s, t ::ₘ rest⟩).threads =
    ((t.seen ++ s.seen : List (Engine.Thread User)) : Multiset (Engine.Thread User)) +
      rest.bind (fun t => (t.seen : Multiset (Engine.Thread User))) := by
  change (t ::ₘ rest).bind _ + (s.seen : Multiset (Engine.Thread User)) = _
  rw [Multiset.cons_bind, ← Multiset.coe_add, add_right_comm]

theorem view_add (s : Shared) (ts : List Thread) (rest : Multiset Thread) :
    (view ⟨s, ts + rest⟩).threads =
    ((ts.flatMap Thread.seen ++ s.seen : List (Engine.Thread User)) :
      Multiset (Engine.Thread User)) +
      rest.bind (fun t => (t.seen : Multiset (Engine.Thread User))) := by
  change ((ts : Multiset Thread) + rest).bind _ + (s.seen : Multiset (Engine.Thread User)) = _
  rw [Multiset.add_bind, Multiset.coe_bind, ← Multiset.coe_add, add_right_comm]

/-! ## One step -/

/-- What a step looks like to the engine: nothing, or one step of one of its threads. -/
def Seen (s : Shared) (t : Thread) (s' : Shared) (ts : List Thread) : Prop :=
  (s'.engine = s.engine ∧ (ts.flatMap Thread.seen ++ s'.seen).Perm (t.seen ++ s.seen)) ∨
  ∃ v ch us left, Engine.step s.engine v ch = some (s'.engine, us) ∧
    (t.seen ++ s.seen).Perm (v :: left) ∧ (ts.flatMap Thread.seen ++ s'.seen).Perm (us ++ left)

theorem flatMap_seen_engine {us : List (Engine.Thread User)} :
    (us.map Thread.engine).flatMap Thread.seen = us := by
  induction us with
  | nil => rfl
  | cons v us ih =>
    rw [List.map_cons, List.flatMap_cons, ih]
    rfl

/-- The operation goes from the context to its drop. -/
theorem seen_operationDrop (hs : s'.engine = s.engine) (ho : s'.context.operation = false)
    {left : List (Engine.Thread User)} (ht : t.seen = left)
    (hts : ts.flatMap Thread.seen = s.operationDrop.flatMap Thread.seen ++ left) :
    Seen s t s' ts := by
  have hnone : s'.seen = [] := by
    unfold Shared.seen
    rw [ho]
    rfl
  by_cases h : s.context.operation = true
  · have hsome : s.seen = [.operation] := if_pos h
    have hdrop : s.operationDrop = [.engine .dropOperation] := if_pos h
    refine .inr ⟨.operation, .go, [.dropOperation], left, ?_, ?_, ?_⟩
    · rw [hs]
      rfl
    · rw [ht, hsome]
      exact List.perm_append_comm
    · rw [hts, hnone, hdrop, List.append_nil]
      rfl
  · have hsome : s.seen = [] := if_neg h
    have hdrop : s.operationDrop = [] := if_neg h
    refine .inl ⟨hs, ?_⟩
    rw [hts, ht, hsome, hnone, hdrop, List.append_nil, List.append_nil]
    rfl

theorem seen_releaseArc {left : List (Engine.Thread User)} (ht : t.seen = left)
    (hts : ts.flatMap Thread.seen = s.releaseArc.2.flatMap Thread.seen ++ left) :
    Seen s t s.releaseArc.1 ts := by
  by_cases h : s.context.life = .live ∧ s.context.arcs = 1
  · refine seen_operationDrop releaseArc_engine ?_ ht ?_
    · unfold Shared.releaseArc
      rw [if_pos h.1, if_pos h.2]
    · unfold Shared.releaseArc at hts
      rw [if_pos h.1, if_pos h.2] at hts
      exact hts
  · have hkept : s.releaseArc.1.seen = s.seen ∧ s.releaseArc.2 = [] := by
      unfold Shared.releaseArc
      split
      · rename_i hl
        rw [if_neg (fun ha => h ⟨hl, ha⟩)]
        exact ⟨rfl, rfl⟩
      · exact ⟨rfl, rfl⟩
    refine .inl ⟨releaseArc_engine, ?_⟩
    rw [hts, ht, hkept.1, hkept.2]
    rfl

/-- **Every move is seen as a step of the engine, or not at all.** -/
theorem Move.seen (hm : Move s t s' ts)
    (hfresh : t = .engine (.admitted .socket) → s.context.operation = false) :
    Seen s t s' ts := by
  induction hm with
  | engine hn _ _ _ =>
    refine .inr ⟨_, _, _, s.seen, hn, List.Perm.refl _, ?_⟩
    rw [flatMap_seen_engine]
    exact List.Perm.refl _
  | stops hn =>
    refine .inr ⟨_, _, _, s.seen, hn, List.Perm.refl _, ?_⟩
    rw [flatMap_seen_engine]
    exact List.Perm.refl _
  | admits =>
    have hnone : s.seen = [] := by
      unfold Shared.seen
      rw [hfresh rfl]
      rfl
    refine .inr ⟨.admitted .socket, .keep, [.operation, .releaseArc], [], rfl, ?_, ?_⟩
    · rw [hnone]
      exact List.Perm.refl _
    · exact List.Perm.swap _ _ _
  | unlocks => exact .inr ⟨.shutdownUnlock, .go, [.shutdownCell], s.seen, rfl, .refl _, .refl _⟩
  | fails =>
    refine seen_operationDrop rfl rfl rfl ?_
    rw [List.flatMap_append]
    rfl
  | takes =>
    refine seen_operationDrop rfl rfl rfl ?_
    rw [List.flatMap_append]
    simp [Thread.seen]
  | lets =>
    refine seen_releaseArc rfl ?_
    rw [List.flatMap_append]
    simp [Thread.seen]
  | gives =>
    refine seen_releaseArc rfl ?_
    exact (List.append_nil _).symm
  | @deletes who => cases who <;> exact .inl ⟨rfl, .refl _⟩
  | @resets who again | @asks who again | @waits who again =>
    cases who <;> cases again <;> exact .inl ⟨rfl, .refl _⟩
  | @clears who => cases who <;> exact .inl ⟨rfl, .refl _⟩
  | @loads who => cases who <;> exact .inl ⟨rfl, .refl _⟩
  | @ignores caller | @enters _ caller | @answers _ _ _ caller | @delivers _ _ _ caller
  | @finishes _ _ caller => cases caller <;> exact .inl ⟨rfl, .refl _⟩
  | _ => exact .inl ⟨rfl, .refl _⟩

/-! ## Whole runs -/

variable {allowed : Policy Shared Thread Choice} {c c' : Config Shared Thread}

/-- The engine as every schedule may run it. -/
abbrev EngineReachable (c : Config Engine.Shared (Engine.Thread User)) : Prop :=
  Reachable Engine.step (fun _ _ _ => True) Engine.start.config c

/-- The call of `open_websocket` has got to where the program starts. -/
theorem engineReachable_start : EngineReachable (view start.config) := by
  have hn : Engine.step (κ := User) {} .handle (.beginOperation .socket) =
      some ({ arcs := 2 }, [.handle, .beginLoad .socket]) := rfl
  have hstep : Pool.Step Engine.step (fun _ _ _ => True)
      ⟨{}, Engine.Thread.handle ::ₘ ({Engine.Thread.cronet} : Multiset (Engine.Thread User))⟩
      ⟨{ arcs := 2 }, ([.handle, .beginLoad .socket] : List (Engine.Thread User)) +
        ({Engine.Thread.cronet} : Multiset (Engine.Thread User))⟩ := by
    refine Pool.Step.run ?_ hn
    trivial
  exact Reachable.start.tail hstep

theorem seen_step (h : Reachable step allowed start.config c) (hs : Step step allowed c c') :
    view c' = view c ∨ Pool.Step Engine.step (fun _ _ _ => True) (view c) (view c') := by
  have hi := ownershipInv_reachable h
  obtain ⟨_, hn⟩ := hs
  rename_i s s' t ts rest ch _
  have hfresh : t = .engine (.admitted .socket) → s.context.operation = false := by
    rintro rfl
    obtain ⟨-, -, -, -, hoperation⟩ :=
      (hi.stands _ (Multiset.mem_cons_self _ rest)).stage rfl
    exact hoperation
  rcases (step_move hn).seen hfresh with ⟨hengine, hperm⟩ | ⟨v, ch, us, left, hv, hbefore, hafter⟩
  · left
    have hthreads : (view ⟨s', ts + rest⟩).threads = (view ⟨s, t ::ₘ rest⟩).threads := by
      rw [view_add, view_cons, Multiset.coe_eq_coe.mpr hperm]
    exact congrArg₂ Config.mk hengine hthreads
  · right
    have hold : view ⟨s, t ::ₘ rest⟩ = ⟨s.engine, v ::ₘ ((left : Multiset _) +
        rest.bind (fun t => (t.seen : Multiset (Engine.Thread User))))⟩ := by
      refine congrArg₂ Config.mk rfl ?_
      have hthreads := view_cons s t rest
      rw [Multiset.coe_eq_coe.mpr hbefore, ← Multiset.cons_coe, Multiset.cons_add] at hthreads
      exact hthreads
    have hnew : view ⟨s', ts + rest⟩ = ⟨s'.engine, (us : Multiset _) + ((left : Multiset _) +
        rest.bind (fun t => (t.seen : Multiset (Engine.Thread User))))⟩ := by
      refine congrArg₂ Config.mk rfl ?_
      have hthreads := view_add s' ts rest
      rw [Multiset.coe_eq_coe.mpr hafter, ← Multiset.coe_add, add_assoc] at hthreads
      exact hthreads
    rw [hold, hnew]
    exact Pool.Step.run trivial hv

/-- **The engine under a WebSocket runs as the engine does.** -/
theorem engine_reachable (h : Reachable step allowed start.config c) :
    EngineReachable (view c) :=
  Reachable.project view engineReachable_start (fun hr hs => seen_step hr hs) h

/-- The operation in the context is one of the live ones. -/
theorem active_of_operation (h : Reachable step allowed start.config c)
    (ho : c.shared.context.operation = true) : 0 < c.shared.engine.active := by
  have hmem : Engine.Thread.operation ∈ (view c).threads := by
    refine Multiset.mem_add.mpr (.inr ?_)
    have hseen : c.shared.seen = [.operation] := if_pos ho
    rw [hseen]
    exact Multiset.mem_singleton_self _
  have hle : 1 ≤ total Engine.Thread.operations (view c).threads :=
    le_total (w := Engine.Thread.operations) hmem
  have hops : c.shared.engine.active = total Engine.Thread.operations (view c).threads :=
    (Engine.admissionInv_reachable (engine_reachable h)).operations
  omega

/-- While it is live the engine is in its slot. -/
theorem native_of_operation (h : Reachable step allowed start.config c)
    (ho : c.shared.context.operation = true) : c.shared.engine.native = true := by
  have hpos := active_of_operation h ho
  by_contra hn
  have hzero : c.shared.engine.active = 0 :=
    (Engine.slotInv_reachable (engine_reachable h)).empty (Bool.eq_false_iff.mpr hn)
  omega

/-- Who takes the engine out finds no operation. -/
theorem operation_of_empties {v : Engine.Thread User} (h : Reachable step allowed start.config c)
    (hv : .engine v ∈ c.threads) (he : v = .takeNative ∨ v = .dropInner) :
    c.shared.context.operation = false := by
  have hmem : v ∈ (view c).threads := by
    refine Multiset.mem_add.mpr (.inl ?_)
    exact Multiset.mem_bind.mpr ⟨.engine v, hv, List.mem_singleton_self v⟩
  obtain ⟨rest, hrest⟩ := Multiset.exists_cons_of_mem hmem
  have hi : Engine.AdmissionInv ⟨c.shared.engine, v ::ₘ rest⟩ := by
    rw [← hrest]
    exact Engine.admissionInv_reachable (engine_reachable h)
  have hzero : c.shared.engine.active = 0 := Engine.active_of_empties hi he
  by_contra ho
  have hpos := active_of_operation h (by simpa using ho)
  omega

/-- Once the engine has been destroyed its slot is empty. -/
theorem native_of_destroyed (h : Reachable step allowed start.config c)
    (hd : Engine.Event.destroyed ∈ c.shared.engine.trace) : c.shared.engine.native = false := by
  have hr := engine_reachable h
  have hshutdown := (Engine.slotInv_reachable hr).destroyed hd
  exact (Engine.active_of_nativeShutdown hr hshutdown).1

/-! ## Shutdown -/

/-- The engine's `CronetContext` goes in `NativeEngine::shutdown`. -/
theorem Move.stopped (hm : Move s t s' ts) (h : s'.native.stopped = true) :
    s.native.stopped = true ∨ ∃ r, t = .engine (.nativeStop r) := by
  induction hm with
  | stops => exact .inr ⟨_, rfl⟩
  | lets | gives =>
    rw [releaseArc_native] at h
    exact .inl h
  | _ => exact .inl h

theorem Move.engineTrace (hm : Move s t s' ts) {e : Engine.Event} (h : e ∈ s.engine.trace) :
    e ∈ s'.engine.trace := by
  induction hm with
  | engine hn => exact Engine.step_trace_mem hn h
  | stops hn => exact Engine.step_trace_mem hn h
  | lets | gives =>
    rw [releaseArc_engine]
    exact h
  | _ => exact h

theorem mem_view {v : Engine.Thread User} (ht : t ∈ c.threads) (hv : v ∈ t.seen) :
    v ∈ (view c).threads :=
  Multiset.mem_add.mpr (.inl (Multiset.mem_bind.mpr ⟨t, ht, Multiset.mem_coe.mpr hv⟩))

theorem nativeShutdown_of_stopped (h : Reachable step allowed start.config c)
    (hs : c.shared.native.stopped = true) :
    Engine.Event.nativeShutdown ∈ c.shared.engine.trace := by
  revert hs
  refine h.invariant (P := fun c => c.shared.native.stopped = true →
    Engine.Event.nativeShutdown ∈ c.shared.engine.trace) (fun hs => by cases hs) ?_
  rintro c c' hr hi ⟨_, hn⟩ hstopped
  rename_i s s' t ts rest ch _
  have hm : Move s t s' ts := step_move hn
  refine hm.engineTrace ?_
  rcases hm.stopped hstopped with hold | ⟨r, rfl⟩
  · exact hi hold
  · refine (Engine.slotInv_reachable (engine_reachable hr)).tearing (.nativeStop r) ?_ rfl
    exact mem_view (Multiset.mem_cons_self _ rest) (List.mem_singleton_self _)

/-- A native call only finds no `CronetContext` once the operation is gone. -/
theorem operation_of_stopped (h : Reachable step allowed start.config c)
    (hs : c.shared.native.stopped = true) : c.shared.context.operation = false := by
  have hzero := (Engine.active_of_nativeShutdown (engine_reachable h)
    (nativeShutdown_of_stopped h hs)).2
  change c.shared.engine.active = 0 at hzero
  by_contra ho
  have hpos := active_of_operation h (by simpa using ho)
  omega

/-- A shutdown cancels after it has set `closing`. -/
theorem closing_of_seen (h : Reachable step allowed start.config c) (ht : t ∈ c.threads)
    (hseen : t.seen = [.shutdownCell]) : c.shared.engine.closing = true := by
  have hmem : Engine.Thread.shutdownCell ∈ (view c).threads := by
    refine mem_view ht ?_
    rw [hseen]
    exact List.mem_singleton_self _
  exact ((Engine.admissionInv_reachable (engine_reachable h)).sound _ hmem).closing rfl

end TokioCronet.WebSocket
