import TokioCronet.WebSocket.Refinement

/-!
# The engine and its sockets

A native socket keeps a raw pointer to its engine for as long as it lives. What keeps the
engine is the `EngineOperation` in the context, and `WsContext::finish` gives that up from
inside the terminal callback, while the socket lives on until the application drops its
`WebSocket`. A shutdown in between destroys the engine under it.

A run in which the engine only leaves its slot when no such socket is left has neither.
-/

namespace TokioCronet.WebSocket

open Pool
open Request (Lifetime)

variable {s s' : Shared} {t u : Thread} {ts : List Thread}

/-- No native socket outlives the engine it points to, and none of its methods has
reached an engine that was destroyed. -/
structure EngineOutlives (s : Shared) : Prop where
  /-- A socket of an engine that was destroyed does not live. -/
  socket : Engine.Event.destroyed ∈ s.engine.trace → s.native.socket ≠ .live
  /-- No method has reached such an engine. -/
  reached : Event.reached ∉ s.trace

/-- When the engine leaves its slot, no socket is left whose operation was given up
before. -/
def NoneReleased : Policy Shared Thread Choice := fun c t _ =>
  t = .engine .takeNative ∨ t = .engine .dropInner → c.shared.engine.native = true →
    ¬ (c.shared.native.socket = .live ∧ c.shared.context.operation = false)

/-! ## What one step does -/

/-- A native socket is made in one place. -/
theorem Move.socket (hm : Move s t s' ts) (h : s'.native.socket = .live) :
    s.native.socket = .live ∨ t = .opening .create := by
  induction hm with
  | creates => exact .inr rfl
  | deletes => cases h
  | lets | gives =>
    rw [releaseArc_native] at h
    exact .inl h
  | _ => exact .inl h

/-- The slot is emptied by the two steps of the engine. -/
theorem Move.slot (hm : Move s t s' ts) : s'.engine.native = s.engine.native ∨
    s'.native.socket = s.native.socket ∧
      ∃ v, t = .engine v ∧ (v = .takeNative ∨ v = .dropInner) := by
  induction hm with
  | engine hn _ _ _ =>
    rcases Engine.step_slot hn with heq | ⟨-, hempties⟩
    · exact .inl heq
    · exact .inr ⟨rfl, _, rfl, hempties⟩
  | stops hn =>
    rcases Engine.step_slot hn with heq | ⟨-, hempties | hempties⟩
    · exact .inl heq
    · cases hempties
    · cases hempties
  | lets | gives =>
    rw [releaseArc_engine]
    exact .inl rfl
  | _ => exact .inl rfl

/-- Only a call on the socket reads the engine. -/
theorem Move.reached (hm : Move s t s' ts) (h : Event.reached ∈ s'.trace) :
    Event.reached ∈ s.trace ∨ t.owner = 1 ∧ t.stage.arcs = 1 ∧ s.engineGone = true := by
  have hreach : t.owner = 1 → t.stage.arcs = 1 → Event.reached ∈ s.reach.trace →
      Event.reached ∈ s.trace ∨ t.owner = 1 ∧ t.stage.arcs = 1 ∧ s.engineGone = true := by
    intro ho hk h
    exact (mem_reach h).imp_right (fun hgone => ⟨ho, hk, hgone.2⟩)
  have hpost : ∀ {e : Shared} {task : NetTask}, Event.reached ∈ (e.post task).trace →
      Event.reached ∈ e.trace := by
    intro e task h
    exact (mem_post h).resolve_right nofun
  have hnotified : ∀ {e : Shared} {c : Callback}, Event.reached ∈ (e.notified c).trace →
      Event.reached ∈ e.trace := by
    intro e c h
    exact (mem_notified h).resolve_right nofun
  have hone : ∀ {tr : List Event} {a : Event}, Event.reached ∈ tr ++ [a] → a ≠ .reached →
      Event.reached ∈ tr := by
    intro tr a h hne
    exact (mem_append_one h).resolve_right (Ne.symm hne)
  induction hm with
  | connects => exact hreach rfl rfl (hpost h)
  | unstarted | sendFails => exact hreach rfl rfl (hnotified h)
  | calls => exact hreach rfl rfl (hpost h)
  | @resets who => exact hreach rfl (by cases who <;> rfl) h
  | @asks who => exact hreach rfl (by cases who <;> rfl) (hpost h)
  | closesRefused => exact .inl (hpost h)
  | faults => exact .inl (hone (hnotified h) nofun)
  | event => exact .inl (hnotified h)
  | lets | gives =>
    rw [releaseArc_trace] at h
    exact .inl h
  | closes => exact .inl (hpost (hone h nofun))
  | @deletes who =>
    left
    cases who <;> simpa [Destroyer.returns] using h
  | creates | fails | opens | misses | loadsNull | receives | ends | runsConnect | runsDestroy
  | runs | delivers | finishes => exact .inl (hone h nofun)
  | _ => exact .inl h

/-! ## The invariant -/

/-- An engine that has left its slot has no socket left. -/
structure TeardownInv (s : Shared) : Prop where
  /-- An engine that has left its slot has no living socket. -/
  slot : s.engine.native = false → s.native.socket ≠ .live
  /-- No method has reached a destroyed engine. -/
  reached : Event.reached ∉ s.trace

variable {c c' : Config Shared Thread}

theorem teardownInv_init : TeardownInv start.shared where
  slot := nofun
  reached := nofun

theorem teardownInv_step (h : Reachable step NoneReleased start.config c)
    (hi : TeardownInv c.shared) (hs : Step step NoneReleased c c') : TeardownInv c'.shared := by
  have hown := ownershipInv_reachable h
  obtain ⟨hpolicy, hn⟩ := hs
  rename_i s s' t ts rest ch
  have hm : Move s t s' ts := step_move hn
  have hself := hown.stands t (Multiset.mem_cons_self t rest)
  refine ⟨?_, ?_⟩
  · intro hempty hlive
    rcases hm.slot with heq | ⟨hsocket, v, rfl, hempties⟩
    · -- the slot was empty before
      have hbefore : s.engine.native = false := heq ▸ hempty
      rcases hm.socket hlive with hold | rfl
      · exact hi.slot hbefore hold
      · -- a call that creates holds an operation
        obtain ⟨-, -, -, -, hoperation⟩ := hself.stage rfl
        have hfull : s.engine.native = true := native_of_operation h hoperation
        rw [hbefore] at hfull
        cases hfull
    · have hoperation : s.context.operation = false :=
        operation_of_empties h (Multiset.mem_cons_self _ rest) hempties
      have hold : s.native.socket = .live := hsocket ▸ hlive
      by_cases hfull : s.engine.native = true
      · refine hpolicy ?_ hfull ⟨hold, hoperation⟩
        rcases hempties with rfl | rfl
        · exact .inl rfl
        · exact .inr rfl
      · exact hi.slot (Bool.eq_false_iff.mpr hfull) hold
  · intro hmem
    rcases hm.reached hmem with hold | ⟨ho, hk, hgone⟩
    · exact hi.reached hold
    · have hempty : s.engine.native = false := native_of_destroyed h (of_decide_eq_true hgone)
      refine hi.slot hempty ?_
      have hholds := hself.stage ho
      generalize t.stage = k at hk hholds
      cases k with
      | calls | creates => cases hk
      | made | attached => exact hholds.1

theorem teardownInv_reachable (h : Reachable step NoneReleased start.config c) :
    TeardownInv c.shared :=
  h.invariant (P := fun c => TeardownInv c.shared) teardownInv_init
    (fun hr hi hs => teardownInv_step hr hi hs)

/-- **The engine outlives its sockets** in every run in which it only leaves its slot when
no socket is left whose operation a terminal callback has given up. -/
theorem engine_outlives (h : Reachable step NoneReleased start.config c) :
    EngineOutlives c.shared where
  socket := fun hd => (teardownInv_reachable h).slot (native_of_destroyed h hd)
  reached := (teardownInv_reachable h).reached

/-! ## Runs -/

/-- A schedule names a thread and what it does in a row. -/
abbrev Schedule := List (Thread × List Choice)

/-- Steps without a choice. -/
def go (n : Nat) : List Choice := List.replicate n .go

/-- Steps of the engine without a choice. -/
def engineGo (n : Nat) : List Choice := List.replicate n (.engine .go)

/-- `open_websocket` gets to its await point, and the channel is made. -/
def connects : Schedule :=
  [(.engine (.beginLoad .socket), engineGo 6 ++ [.engine .keep] ++ go 6), (.network, [.run])]

/-- The connection is there, and `open_websocket` returns. -/
def opens : Schedule :=
  connects ++
  [(.network, [.event (.opened none)] ++ go 4), (.opening .await, go 1),
   (.engine .releaseArc, [.engine .go])]

/-- The connection ends, and its operation with it. -/
def closed : Schedule :=
  [(.network, [.event .closed] ++ go 3), (.engine .dropOperation, engineGo 3),
   (.callback .release (.network true), go 2)]

/-- A shutdown sets `closing` and cancels what it finds. -/
def shutsDown : Schedule :=
  [(.engine .handle, [.engine .shutdown]), (.engine .shutdownLock, engineGo 3), (.snapshot, go 3)]

/-- It finds nothing live and destroys the engine. -/
def tearsDown : Schedule :=
  [(.engine .shutdownCell, engineGo 7),
   (.engine (.nativeShutdown .blocking), [.engine .go, .engine (.result none), .engine .go])]

/-- The `WebSocket` is dropped. -/
def drops : Schedule :=
  [(.socket .idle, [.drop] ++ go 2), (.network, [.run]), (.destroy (.wait .handle false), go 2),
   (.network, [.run]), (.destroy (.wait .handle true), go 2), (.releaseArc, go 1),
   (.releaseArc, go 1), (.engine .dropOperation, engineGo 3)]

/-- `NoneReleased` as a test. -/
def noneReleased (c : Listed Shared Thread) (t : Thread) (_ : Choice) : Bool :=
  !(t == .engine .takeNative || t == .engine .dropInner) || !c.shared.engine.native ||
    !(c.shared.native.socket == .live && !c.shared.context.operation)

theorem noneReleased_sound (c : Listed Shared Thread) (t : Thread) (ch : Choice)
    (h : noneReleased c t ch = true) : NoneReleased c.config t ch := by
  rintro ht hn ⟨hsocket, hoperation⟩
  change c.shared.engine.native = true at hn
  change c.shared.native.socket = .live at hsocket
  change c.shared.context.operation = false at hoperation
  unfold noneReleased at h
  rw [hn, hsocket, hoperation] at h
  rcases ht with rfl | rfl <;> cases h

/-- The socket is dropped, and the engine is destroyed after it. -/
theorem engine_outlives_dropped :
    let c := (Pool.play step noneReleased start (opens ++ drops ++ shutsDown ++ tearsDown)).config
    Engine.Event.destroyed ∈ c.shared.engine.trace ∧ c.shared.native.socket = .gone ∧
      EngineOutlives c.shared := by
  refine ⟨by decide +kernel, by decide +kernel, ?_⟩
  exact engine_outlives (play_reachable noneReleased_sound
    (opens ++ drops ++ shutsDown ++ tearsDown) Reachable.start)

/-- No contract. -/
def unchecked : Listed Shared Thread → Thread → Choice → Bool := fun _ _ _ => true

/-- The connection is closed, the engine is shut down, and the application closes the
`WebSocket` it still has. -/
def closesLate : Schedule :=
  opens ++ closed ++ shutsDown ++ tearsDown ++ [(.socket .idle, [.close 1000 "", .go])]

theorem engine_destroyed_under_socket :
    ∃ c, Reachable step (fun _ _ _ => True) start.config c ∧
      Engine.Event.destroyed ∈ c.shared.engine.trace ∧ c.shared.native.socket = .live ∧
      Event.reached ∈ c.shared.trace := by
  refine ⟨(Pool.play step unchecked start closesLate).config,
    play_reachable (fun _ _ _ _ => trivial) closesLate Reachable.start, ?_⟩
  decide +kernel

end TokioCronet.WebSocket
