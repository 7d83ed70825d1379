import TokioCronet.WebSocket.Tasks

/-!
# The pointer of a control

`WsControl::cancel` loads the pointer and calls `Close` on what it found. The pointer is
cleared before the socket is destroyed, which keeps later loads away from the socket, and
does nothing about a canceler that has loaded it already: the other controls of the crate
hold a mutex over both steps. A run in which no socket is deleted while a canceler stands
between its two steps never calls `Close` on a destroyed socket.
-/

namespace TokioCronet.WebSocket

open Pool
open Request (Lifetime)

variable {s s' : Shared} {t u : Thread} {ts : List Thread}

/-- A canceler that has loaded the pointer, and calls `Close` next. -/
def Thread.closes : Thread → Bool
  | .cancel (.close _) => true
  | _ => false

/-- Nobody is about to call `Close` on a socket that was destroyed. -/
def ClosesLive (c : Config Shared Thread) : Prop :=
  ∀ t ∈ c.threads, t.closes = true → c.shared.native.socket ≠ .gone

/-- When a socket is deleted, no canceler stands between its load and its call. -/
def NoneLoaded : Policy Shared Thread Choice := fun c t _ =>
  ∀ who, t = .destroy (.delete who) → ∀ u ∈ c.threads, u.closes = false

/-! ## What one step does -/

/-- Only a load that finds the pointer leads to a `Close`. -/
theorem Move.loaded (hm : Move s t s' ts) : ∀ u ∈ ts, u.closes = true →
    s.control.native = true := by
  intro u hu hc
  have hdropped : u ≠ .engine .dropOperation := by
    rintro rfl
    cases hc
  induction hm with
  | loads h => exact h
  | engine | stops =>
    obtain ⟨v, -, rfl⟩ := List.mem_map.mp hu
    cases hc
  | fails | takes =>
    rcases List.mem_append.mp hu with hu | hu
    · exact absurd (mem_operationDrop hu) hdropped
    · obtain rfl := List.mem_singleton.mp hu
      cases hc
  | lets =>
    rcases List.mem_append.mp hu with hu | hu
    · exact absurd (mem_releaseArc hu) hdropped
    · obtain rfl := List.mem_singleton.mp hu
      cases hc
  | gives => exact absurd (mem_releaseArc hu) hdropped
  | @deletes who =>
    cases who <;>
      simp only [Destroyer.releases, List.mem_cons, List.not_mem_nil, or_false] at hu <;>
      rcases hu with rfl | rfl | rfl <;> cases hc
  | opens | leaks =>
    simp only [List.mem_cons, List.not_mem_nil, or_false] at hu
    rcases hu with rfl | rfl <;> cases hc
  | @resets who again | @waits who again =>
    obtain rfl := List.mem_singleton.mp hu
    cases again <;> cases hc
  | _ =>
    obtain rfl := List.mem_singleton.mp hu
    cases hc

/-- The pointer is set while the socket is live. -/
theorem Move.sets (hm : Move s t s' ts) (h : s'.control.native = true) :
    s.control.native = true ∨ t = .opening .setNative := by
  induction hm with
  | publishes => exact .inr rfl
  | clears => cases h
  | lets | gives =>
    rw [releaseArc_control] at h
    exact .inl h
  | _ => exact .inl h

/-! ## The invariant -/

/-- A socket that is gone can no longer be found, and nobody has found it before. -/
structure ClosingInv (c : Config Shared Thread) : Prop where
  /-- The pointer was cleared before. -/
  pointer : c.shared.native.socket = .gone → c.shared.control.native = false
  /-- Who has loaded it has a socket that lives. -/
  loaded : ClosesLive c

variable {allowed : Policy Shared Thread Choice} {c c' : Config Shared Thread}

theorem closingInv_init : ClosingInv start.config where
  pointer := nofun
  loaded := by
    intro t _ _
    nofun

/-- Whoever deletes the socket has cleared the pointer. -/
theorem cleared_of_deletes {who : Destroyer} (h : Stands s (.destroy (.delete who))) :
    s.control.native = false := by
  cases who <;> obtain ⟨-, -, -, hpointer, -⟩ := h.stage rfl <;> exact hpointer

theorem closingInv_step (h : Reachable step NoneLoaded start.config c) (hi : ClosingInv c)
    (hs : Step step NoneLoaded c c') : ClosingInv c' := by
  have hown := ownershipInv_reachable h
  obtain ⟨hpolicy, hn⟩ := hs
  rename_i s s' t ts rest ch
  have hm : Move s t s' ts := step_move hn
  have hself := hown.stands t (Multiset.mem_cons_self t rest)
  -- the pointer of a socket that is gone, or goes in this step
  have hpointer : s'.native.socket = .gone → s.control.native = false := by
    intro hgone
    rcases hm.socketGone hgone with hold | ⟨who, rfl⟩
    · exact hi.pointer hold
    · exact cleared_of_deletes hself
  refine ⟨?_, ?_⟩
  · intro hgone
    by_contra hset
    rcases hm.sets (by simpa using hset) with hold | rfl
    · rw [hpointer hgone] at hold
      cases hold
    · obtain ⟨hlive, -⟩ := hself.stage rfl
      rcases hm.socketGone hgone with hold | ⟨who, heq⟩
      · rw [hlive] at hold
        cases hold
      · cases heq
  · refine forall_step hi.loaded ?_ ?_
    · intro _ u hu hc hgone
      have hfound := hm.loaded u hu hc
      rw [hpointer hgone] at hfound
      cases hfound
    · intro u hu hold hc hgone
      rcases hm.socketGone hgone with hbefore | ⟨who, rfl⟩
      · exact hold hc hbefore
      · have hnone := hpolicy who rfl u (Multiset.mem_cons_of_mem hu)
        rw [hc] at hnone
        cases hnone

theorem closingInv_reachable (h : Reachable step NoneLoaded start.config c) : ClosingInv c :=
  h.invariant closingInv_init (fun hr hi hs => closingInv_step hr hi hs)

/-- **`Close` is never called on a destroyed socket** in a run in which no socket is deleted
while a canceler stands between its load and its call. -/
theorem close_before_destroy (h : Reachable step NoneLoaded start.config c) : ClosesLive c :=
  (closingInv_reachable h).loaded

/-- A step that deletes the socket under a canceler leaves it with a destroyed one. -/
theorem closes_gone {who : Destroyer} {rest : Multiset Thread} (hu : u ∈ rest)
    (hc : u.closes = true) (hm : Move s (.destroy (.delete who)) s' ts) :
    ¬ ClosesLive ⟨s', ts + rest⟩ := by
  intro hlive
  refine hlive u (Multiset.mem_add.mpr (.inr hu)) hc ?_
  cases hm with
  | deletes => rfl

/-! ## Runs -/

/-- `NoneLoaded` as a test. -/
def noneLoaded (c : Listed Shared Thread) (t : Thread) (_ : Choice) : Bool :=
  match t with
  | .destroy (.delete _) => c.threads.all (fun u => !u.closes)
  | _ => true

theorem noneLoaded_sound (c : Listed Shared Thread) (t : Thread) (ch : Choice)
    (h : noneLoaded c t ch = true) : NoneLoaded c.config t ch := by
  rintro who rfl u hu
  have hu : u ∈ c.threads := Multiset.mem_coe.mp hu
  have hall : c.threads.all (fun u => !u.closes) = true := h
  simpa using List.all_eq_true.mp hall u hu

/-- A shutdown cancels the open socket, which is dropped after it. -/
def closedThenDropped : Schedule := opens ++ shutsDown ++ [(.network, [.run])] ++ drops

theorem close_before_destroy_dropped :
    let c := (Pool.play step noneLoaded start closedThenDropped).config
    Event.posted (.close 1001 "") ∈ c.shared.trace ∧ c.shared.native.socket = .gone ∧
      ClosesLive c := by
  refine ⟨by decide +kernel, by decide +kernel, ?_⟩
  exact close_before_destroy (play_reachable noneLoaded_sound closedThenDropped Reachable.start)

/-- The shutdown has loaded the pointer when the `WebSocket` is dropped, and goes on. -/
def loadsEarly : Schedule :=
  opens ++
  [(.engine .handle, [.engine .shutdown]), (.engine .shutdownLock, engineGo 3),
    (.snapshot, go 2)] ++
  drops

theorem close_after_destroy :
    ∃ c, Reachable step (fun _ _ _ => True) start.config c ∧ Event.destroyed ∈ c.shared.trace ∧
      .cancel (.close .shutdown) ∈ c.threads ∧ ¬ ClosesLive c := by
  refine ⟨(Pool.play step unchecked start loadsEarly).config,
    play_reachable (fun _ _ _ _ => trivial) loadsEarly Reachable.start, by decide +kernel,
    Multiset.mem_coe.mpr (by decide +kernel), ?_⟩
  intro hlive
  refine hlive (.cancel (.close .shutdown)) (Multiset.mem_coe.mpr (by decide +kernel)) rfl ?_
  decide +kernel

end TokioCronet.WebSocket
