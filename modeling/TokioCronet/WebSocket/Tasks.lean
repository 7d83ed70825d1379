import TokioCronet.Lib.Trace
import TokioCronet.WebSocket.Teardown

/-!
# The tasks of a socket

What the native methods post is run in the order of the posting, so what has been posted
is what was run and then what is queued. A `Connect` that was posted is answered for when
a `Close` or a `Destroy` comes behind it or a terminal callback has finished the context:
the destruction does the first, unless the engine has lost its `CronetContext`, and then
nothing but a terminal callback has released the operation.
-/

namespace TokioCronet.WebSocket

open Pool
open Request (Lifetime)

variable {s s' : Shared} {t u : Thread} {ts : List Thread}

/-- The tasks that were posted. -/
def posted (tr : List Event) : List NetTask :=
  tr.filterMap fun e =>
    match e with
    | .posted task => some task
    | _ => none

/-- The tasks that the network thread has taken. -/
def ran (tr : List Event) : List NetTask :=
  tr.filterMap fun e =>
    match e with
    | .ran task => some task
    | _ => none

@[simp] theorem posted_append {l r : List Event} : posted (l ++ r) = posted l ++ posted r :=
  List.filterMap_append

@[simp] theorem ran_append {l r : List Event} : ran (l ++ r) = ran l ++ ran r :=
  List.filterMap_append

@[simp] theorem posted_map {l : List NetTask} : posted (l.map .posted) = l := by
  unfold posted
  rw [List.filterMap_map]
  exact List.filterMap_some

@[simp] theorem ran_map {l : List NetTask} : ran (l.map .posted) = [] := by
  unfold ran
  rw [List.filterMap_map, List.filterMap_eq_nil_iff]
  intro _ _
  rfl

theorem mem_posted {tr : List Event} {task : NetTask} :
    task ∈ posted tr ↔ Event.posted task ∈ tr := by
  constructor
  · intro h
    obtain ⟨e, he, heq⟩ := List.mem_filterMap.mp h
    cases e <;> cases heq
    exact he
  · intro h
    exact List.mem_filterMap.mpr ⟨_, h, rfl⟩

/-- A task that ends the connection. -/
def NetTask.ends : NetTask → Bool
  | .close _ _ | .destroy => true
  | _ => false

/-- Some task that ends the connection comes after the `Connect`. -/
def Followed (tasks : List NetTask) : Prop :=
  Trace.Follows (· = .connect) (·.ends = true) tasks

/-- The terminal callback has finished the context. -/
def Finished (s : Shared) : Prop := ∃ result, Event.finished result ∈ s.trace

/-- The `Connect` is answered for. -/
def Answered (s : Shared) : Prop := Followed (posted s.trace) ∨ Finished s

/-! ## What one step does -/

/-- The trace only grows. -/
theorem Move.grows (hm : Move s t s' ts) : s.trace <+: s'.trace := by
  induction hm with
  | lets | gives => rw [releaseArc_trace]
  | connects | calls => exact (List.prefix_append _ _).trans (List.prefix_append _ _)
  | unstarted | sendFails => exact (List.prefix_append _ _).trans (List.prefix_append _ _)
  | asks => exact (List.prefix_append _ _).trans (List.prefix_append _ _)
  | closes => exact (List.prefix_append _ _).trans (List.prefix_append _ _)
  | faults => exact (List.prefix_append _ _).trans (List.prefix_append _ _)
  | _ => first | exact List.prefix_refl _ | exact List.prefix_append _ _

theorem posted_reach : posted s.reach.trace = posted s.trace := by
  change posted (s.trace ++ _) = _
  split <;> simp [posted]

theorem posted_post {task : NetTask} :
    posted (s.post task).trace = posted s.trace ++ s.posts task := by
  change posted (s.trace ++ _) = _
  rw [posted_append, posted_map]

theorem posted_notified {c : Callback} : posted (s.notified c).trace = posted s.trace := by
  change posted (s.trace ++ _) = _
  split <;> simp [posted]

theorem posts_of_running {task : NetTask} (h : s.native.stopped = false) :
    s.posts task = [task] := by
  unfold Shared.posts
  rw [h]
  rfl

/-- One task at most is posted, and only while the engine has its context. -/
theorem Move.posts (hm : Move s t s' ts) :
    posted s'.trace = posted s.trace ∨
      ∃ task, t.task = some task ∧ s.native.stopped = false ∧
        posted s'.trace = posted s.trace ++ [task] := by
  have hpost : ∀ (task : NetTask), t.task = some task →
      posted s'.trace = posted s.trace ++ s.posts task →
      posted s'.trace = posted s.trace ∨ ∃ task, t.task = some task ∧
        s.native.stopped = false ∧ posted s'.trace = posted s.trace ++ [task] := by
    intro task ht htrace
    rw [htrace]
    by_cases hs : s.native.stopped = true
    · left
      rw [Shared.posts, if_pos hs, List.append_nil]
    · right
      have hrunning : s.native.stopped = false := Bool.eq_false_iff.mpr hs
      exact ⟨task, ht, hrunning, by rw [posts_of_running hrunning]⟩
  induction hm with
  | connects =>
    refine hpost .connect rfl ?_
    rw [posted_post, posted_reach]
    rfl
  | calls htask =>
    refine hpost _ htask ?_
    rw [posted_post, posted_reach]
    rfl
  | asks =>
    refine hpost .destroy rfl ?_
    rw [posted_post]
    change posted s.reach.trace ++ _ = _
    rw [posted_reach]
    rfl
  | closesRefused => exact hpost _ rfl posted_post
  | closes =>
    refine hpost _ rfl ?_
    rw [posted_append, posted_post]
    exact List.append_nil _
  | unstarted | sendFails =>
    left
    rw [posted_notified, posted_reach]
  | resets => exact .inl posted_reach
  | faults =>
    left
    rw [posted_notified]
    simp [Shared.ran, posted]
  | event => exact .inl posted_notified
  | @deletes who => left; cases who <;> simp [posted, Destroyer.returns]
  | lets | gives => rw [releaseArc_trace]; exact .inl rfl
  | _ => first
    | exact .inl rfl
    | exact .inl (by simp [Shared.ran, Shared.trySend, Shared.finish, Shared.openFailed, posted])

/-- **First in, first out.** -/
theorem Move.fifo (hm : Move s t s' ts)
    (h : posted s.trace = ran s.trace ++ s.native.tasks) :
    posted s'.trace = ran s'.trace ++ s'.native.tasks := by
  have hreach : posted s.reach.trace = ran s.reach.trace ++ s.native.tasks := by
    change posted (s.trace ++ _) = ran (s.trace ++ _) ++ _
    split <;> simpa [posted, ran] using h
  have hpost : ∀ (e : Shared) (task : NetTask),
      posted e.trace = ran e.trace ++ e.native.tasks →
      posted (e.post task).trace = ran (e.post task).trace ++ (e.post task).native.tasks := by
    intro e task he
    change posted (e.trace ++ _) = ran (e.trace ++ _) ++ (e.native.tasks ++ _)
    rw [posted_append, ran_append, posted_map, ran_map, he, List.append_nil, List.append_assoc]
  have hnotified : ∀ (e : Shared) (c : Callback),
      posted e.trace = ran e.trace ++ e.native.tasks →
      posted (e.notified c).trace = ran (e.notified c).trace ++ (e.notified c).native.tasks := by
    intro e c he
    change posted (e.trace ++ _) = ran (e.trace ++ _) ++ e.native.tasks
    split <;> simpa [posted, ran] using he
  have hran : ∀ (task : NetTask) (tasks : List NetTask), s.native.tasks = task :: tasks →
      posted (s.ran task tasks).trace = ran (s.ran task tasks).trace ++ tasks := by
    intro task tasks htasks
    rw [htasks] at h
    simpa [Shared.ran, posted, ran] using h
  induction hm with
  | connects => exact hpost s.reach _ hreach
  | calls => exact hpost s.reach _ hreach
  | asks => exact hpost { s.reach with native.destroyed := false } _ hreach
  | closesRefused => exact hpost s _ h
  | closes =>
    have heq := hpost s (.close 1001 "") h
    simpa [posted, ran] using heq
  | unstarted | sendFails => exact hnotified s.reach _ hreach
  | resets => exact hreach
  | faults htasks => exact hnotified _ _ (hran _ _ htasks)
  | runsConnect htasks => exact hran _ _ htasks
  | runsDestroy htasks => exact hran _ _ htasks
  | runs htasks => exact hran _ _ htasks
  | event => exact hnotified s _ h
  | @deletes who => cases who <;> simpa [posted, ran, Destroyer.returns] using h
  | lets | gives =>
    rw [releaseArc_trace, releaseArc_native]
    exact h
  | _ => first
    | exact h
    | simpa [Shared.trySend, Shared.finish, Shared.openFailed, posted, ran] using h

/-! ## Answers stay -/

theorem Move.finished (hm : Move s t s' ts) (h : Finished s) : Finished s' := by
  obtain ⟨result, hmem⟩ := h
  exact ⟨result, hm.grows.subset hmem⟩

theorem Move.answered (hm : Move s t s' ts) (h : Answered s) : Answered s' := by
  rcases h with h | h
  · left
    rcases hm.posts with heq | ⟨task, -, -, heq⟩
    · rw [heq]
      exact h
    · rw [heq]
      exact Trace.Follows.append h [task]
  · exact .inr (hm.finished h)

/-- The `Connect` has been posted. -/
def Connected (s : Shared) : Prop := NetTask.connect ∈ posted s.trace

/-- A step posts the `Connect` from one place. -/
theorem Move.connected (hm : Move s t s' ts) (h : Connected s') :
    Connected s ∨ t = .opening .connect := by
  unfold Connected at h
  rcases hm.posts with heq | ⟨task, ht, -, heq⟩
  · rw [heq] at h
    exact .inl h
  · rw [heq, List.mem_append, List.mem_singleton] at h
    rcases h with h | rfl
    · exact .inl h
    · right
      unfold Thread.task at ht
      split at ht
      · rfl
      · cases ht
      · rename_i p
        cases p <;> cases ht
      · cases ht
      · cases ht

/-! ## The invariant -/

/-- A terminal callback is about to take the operation. -/
def Thread.taking : Thread → Bool
  | .callback .operation _ => true
  | _ => false

/-- `Destroy` has been called. -/
def Thread.destroying : Thread → Bool
  | .destroy (.post _ true) | .destroy (.wait _ _) | .destroy (.delete _) => true
  | _ => false

/-- What the tasks that were posted say about the socket. -/
structure TasksInv (c : Config Shared Thread) : Prop where
  /-- The tasks run in the order of the posting. -/
  fifo : posted c.shared.trace = ran c.shared.trace ++ c.shared.native.tasks
  /-- `open_websocket` connects last. -/
  connected : Connected c.shared → c.shared.native.callbacks = true ∧
    c.shared.registered = true ∧ c.shared.native.socket ≠ .unborn
  /-- Who takes the sender of the end runs a terminal callback. -/
  taking : ∀ t ∈ c.threads, t.taking = true → Finished c.shared
  /-- While there is a context, only a terminal callback takes its operation. -/
  operation : c.shared.context.life = .live →
    c.shared.context.operation = true ∨ Finished c.shared
  /-- A socket that is being destroyed was answered. -/
  destroying : ∀ t ∈ c.threads, t.destroying = true → Connected c.shared → Answered c.shared
  /-- The pointer is cleared for a `Destroy`. -/
  cleared : Connected c.shared → c.shared.control.native = false →
    Answered c.shared ∨ ∃ who, .destroy (.post who false) ∈ c.threads
  /-- So was one that is gone. -/
  socket : c.shared.native.socket = .gone → Connected c.shared → Answered c.shared
  /-- So was one whose context is gone. -/
  context : c.shared.context.life = .gone → Connected c.shared → Answered c.shared

variable {allowed : Policy Shared Thread Choice} {c c' : Config Shared Thread}

theorem tasksInv_init : TasksInv start.config where
  fifo := rfl
  connected := by
    intro h
    cases h
  taking := by
    intro t ht
    simp only [start, Listed.config, Multiset.mem_coe, List.mem_cons, List.not_mem_nil,
      or_false] at ht
    rcases ht with rfl | rfl | rfl | rfl <;> intro hc <;> cases hc
  operation := by
    intro h
    cases h
  destroying := by
    intro t ht
    simp only [start, Listed.config, Multiset.mem_coe, List.mem_cons, List.not_mem_nil,
      or_false] at ht
    rcases ht with rfl | rfl | rfl | rfl <;> intro hc <;> cases hc
  cleared := by
    intro h
    cases h
  socket := by
    intro h
    cases h
  context := by
    intro h
    cases h

/-- Without a `CronetContext` a connected socket has had its terminal callback. -/
theorem TasksInv.answered_of_stopped (hi : TasksInv c)
    (h : Reachable step allowed start.config c) (hc : Connected c.shared)
    (hs : c.shared.native.stopped = true) : Answered c.shared := by
  have hoperation := operation_of_stopped h hs
  cases hl : c.shared.context.life with
  | unborn =>
    have hcallbacks := ((ownershipInv_reachable h).unborn hl).callbacks
    rw [(hi.connected hc).1] at hcallbacks
    cases hcallbacks
  | live =>
    rcases hi.operation hl with ho | hfinished
    · rw [hoperation] at ho
      cases ho
    · exact .inr hfinished
  | gone => exact hi.context hl hc

/-! ## One step, field by field -/

theorem Move.taking (hm : Move s t s' ts) : ∀ u ∈ ts, u.taking = true → Finished s' := by
  intro u hu hc
  induction hm with
  | @finishes _ result => exact ⟨result, List.mem_append_right _ (List.mem_singleton_self _)⟩
  | engine | stops =>
    obtain ⟨v, -, rfl⟩ := List.mem_map.mp hu
    cases hc
  | @unstarted | @sendFails | @faults | @event =>
    obtain rfl := List.mem_singleton.mp hu
    unfold Shared.notify at hc
    split at hc <;> cases hc
  | @enters d =>
    obtain rfl := List.mem_singleton.mp hu
    cases d <;> cases hc
  | answers _ hp | delivers _ hp =>
    obtain rfl := List.mem_singleton.mp hu
    subst hp
    split at hc <;> cases hc
  | fails | takes =>
    rcases List.mem_append.mp hu with hu | hu
    · rw [mem_operationDrop hu] at hc
      cases hc
    · obtain rfl := List.mem_singleton.mp hu
      cases hc
  | lets =>
    rcases List.mem_append.mp hu with hu | hu
    · rw [mem_releaseArc hu] at hc
      cases hc
    · obtain rfl := List.mem_singleton.mp hu
      cases hc
  | gives =>
    rw [mem_releaseArc hu] at hc
    cases hc
  | @deletes who =>
    cases who <;>
      simp only [Destroyer.releases, List.mem_cons, List.not_mem_nil, or_false] at hu <;>
      rcases hu with rfl | rfl | rfl <;> cases hc
  | opens | leaks =>
    simp only [List.mem_cons, List.not_mem_nil, or_false] at hu
    rcases hu with rfl | rfl <;> cases hc
  | _ =>
    obtain rfl := List.mem_singleton.mp hu
    cases hc

/-- `DestroyAndWait` posts its task, if there is still a network thread to take it. -/
theorem Move.destroys {who : Destroyer} {again : Bool}
    (hm : Move s (.destroy (.post who again)) s' ts) :
    s.native.stopped = true ∨ posted s'.trace = posted s.trace ++ [.destroy] := by
  cases hm with
  | resets hs => exact .inl hs
  | asks hs =>
    right
    rw [posted_post]
    change posted s.reach.trace ++ s.posts .destroy = _
    rw [posts_of_running hs, posted_reach]

/-- Whoever has called `Destroy` had done so before, or does it in this step. -/
theorem Move.destroying (hm : Move s t s' ts) : ∀ u ∈ ts, u.destroying = true →
    t.destroying = true ∨ ∃ who, t = .destroy (.post who false) ∧
      (s.native.stopped = true ∨ posted s'.trace = posted s.trace ++ [.destroy]) := by
  intro u hu hc
  induction hm with
  | @resets who again hs =>
    cases again
    · exact .inr ⟨who, rfl, .inl hs⟩
    · exact .inl rfl
  | @asks who again hs =>
    cases again
    · exact .inr ⟨who, rfl, Move.destroys (@Move.asks s who false hs)⟩
    · exact .inl rfl
  | waits => exact .inl rfl
  | engine | stops =>
    obtain ⟨v, -, rfl⟩ := List.mem_map.mp hu
    cases hc
  | fails | takes =>
    rcases List.mem_append.mp hu with hu | hu
    · rw [mem_operationDrop hu] at hc
      cases hc
    · obtain rfl := List.mem_singleton.mp hu
      cases hc
  | lets =>
    rcases List.mem_append.mp hu with hu | hu
    · rw [mem_releaseArc hu] at hc
      cases hc
    · obtain rfl := List.mem_singleton.mp hu
      cases hc
  | gives =>
    rw [mem_releaseArc hu] at hc
    cases hc
  | @deletes who =>
    cases who <;>
      simp only [Destroyer.releases, List.mem_cons, List.not_mem_nil, or_false] at hu <;>
      rcases hu with rfl | rfl | rfl <;> cases hc
  | opens | leaks =>
    simp only [List.mem_cons, List.not_mem_nil, or_false] at hu
    rcases hu with rfl | rfl <;> cases hc
  | _ =>
    obtain rfl := List.mem_singleton.mp hu
    cases hc

/-- The context is given up by the last `Arc`, or never made. -/
theorem Move.context (hm : Move s t s' ts) (h : s'.context.life = .gone) :
    s.context.life = .gone ∨ t = .opening .create ∨
      s.context.life = .live ∧ s.context.arcs = 1 ∧ 1 ≤ t.arcs ∧ s'.native = s.native := by
  have hrelease : s.releaseArc.1.context.life = .gone → 1 ≤ t.arcs →
      s.context.life = .gone ∨ t = .opening .create ∨ s.context.life = .live ∧
        s.context.arcs = 1 ∧ 1 ≤ t.arcs ∧ s.releaseArc.1.native = s.native := by
    intro hgone harcs
    by_cases hlast : s.context.life = .live ∧ s.context.arcs = 1
    · exact .inr (.inr ⟨hlast.1, hlast.2, harcs, releaseArc_native⟩)
    · rw [releaseArc_life (fun hl ha => hlast ⟨hl, ha⟩)] at hgone
      exact .inl hgone
  induction hm with
  | creates => cases h
  | fails => exact .inr (.inl rfl)
  | lets => exact hrelease h (Nat.le_add_right _ _)
  | gives => exact hrelease h (Nat.le_refl _)
  | _ => exact .inl h

theorem Move.socketGone (hm : Move s t s' ts) (h : s'.native.socket = .gone) :
    s.native.socket = .gone ∨ ∃ who, t = .destroy (.delete who) := by
  induction hm with
  | creates => cases h
  | deletes => exact .inr ⟨_, rfl⟩
  | lets | gives =>
    rw [releaseArc_native] at h
    exact .inl h
  | _ => exact .inl h

theorem Move.socketBorn (hm : Move s t s' ts) (h : s.native.socket ≠ .unborn) :
    s'.native.socket ≠ .unborn := by
  induction hm with
  | creates | deletes => nofun
  | lets | gives =>
    rw [releaseArc_native]
    exact h
  | _ => exact h

theorem Move.registered (hm : Move s t s' ts) (h : s.registered = true) :
    s'.registered = true := by
  induction hm with
  | lists => rfl
  | lets | gives =>
    rw [releaseArc_registered]
    exact h
  | _ => exact h

/-- The pointer is set before, or cleared for the destruction. -/
theorem Move.pointer (hm : Move s t s' ts) (h : s'.control.native = false) :
    s.control.native = false ∨ ∃ who, .destroy (.post who false) ∈ ts := by
  induction hm with
  | publishes => cases h
  | clears => exact .inr ⟨_, List.mem_singleton_self _⟩
  | lets | gives =>
    rw [releaseArc_control] at h
    exact .inl h
  | _ => exact .inl h

/-- While the context is there, the operation goes in a terminal callback. -/
theorem Move.releases (hm : Move s t s' ts) (hl : s'.context.life = .live) :
    s'.context.operation = s.context.operation ∨ s'.context.operation = true ∨
      t.taking = true := by
  have hrelease : s.releaseArc.1.context.life = .live →
      s.releaseArc.1.context.operation = s.context.operation := by
    intro hlive
    unfold Shared.releaseArc at hlive ⊢
    split
    · rename_i h
      rw [if_pos h] at hlive
      split
      · rename_i ha
        rw [if_pos ha] at hlive
        cases hlive
      · rfl
    · rfl
  induction hm with
  | admits => exact .inr (.inl rfl)
  | fails => cases hl
  | takes => exact .inr (.inr rfl)
  | lets | gives => exact .inl (hrelease hl)
  | _ => exact .inl rfl

/-- A `Destroy` that is posted now comes behind the `Connect`. -/
theorem answered_of_posted {task : NetTask} (hc : Connected s) (hends : task.ends = true)
    (h : posted s'.trace = posted s.trace ++ [task]) : Answered s' := by
  left
  rw [h]
  exact Trace.follows_of_mem (a := .connect) hc rfl hends

section

variable {rest : Multiset Thread}

/-- The step that posts the `Connect` stands behind `SetCallbacks`. -/
theorem Move.connected_by (hm : Move s t s' ts) (hown : OwnershipInv ⟨s, t ::ₘ rest⟩)
    (hc : Connected s') : Connected s ∨ t = .opening .connect ∧
      s.native.callbacks = true ∧ s.registered = true ∧ s.native.socket = .live ∧
        s.control.native = true ∧ s.context.life = .live := by
  rcases hm.connected hc with hold | rfl
  · exact .inl hold
  · obtain ⟨hsocket, hlife, hcallbacks, hnative, hregistered⟩ :=
      (hown.stands _ (Multiset.mem_cons_self _ rest)).stage rfl
    exact .inr ⟨rfl, hcallbacks, hregistered rfl, hsocket, hnative, hlife⟩

theorem TasksInv.connected_step (hi : TasksInv ⟨s, t ::ₘ rest⟩) (hm : Move s t s' ts)
    (hown : OwnershipInv ⟨s, t ::ₘ rest⟩) (hc : Connected s') :
    s'.native.callbacks = true ∧ s'.registered = true ∧ s'.native.socket ≠ .unborn := by
  rcases hm.connected_by hown hc with hold | ⟨-, hcallbacks, hregistered, hsocket, -⟩
  · obtain ⟨hcallbacks, hregistered, hborn⟩ := hi.connected hold
    exact ⟨hm.callbacks hcallbacks, hm.registered hregistered, hm.socketBorn hborn⟩
  · exact ⟨hm.callbacks hcallbacks, hm.registered hregistered,
      hm.socketBorn (by rw [hsocket]; nofun)⟩

theorem TasksInv.operation_step (hi : TasksInv ⟨s, t ::ₘ rest⟩) (hm : Move s t s' ts)
    (hown : OwnershipInv ⟨s, t ::ₘ rest⟩) (hl : s'.context.life = .live) :
    s'.context.operation = true ∨ Finished s' := by
  rcases hm.releases hl with heq | htrue | htaking
  · rw [heq]
    by_cases hlive : s.context.life = .live
    · exact (hi.operation hlive).imp_right hm.finished
    · -- the context is made in this step
      left
      induction hm with
      | creates => exact ((hown.stands _ (Multiset.mem_cons_self _ rest)).stage rfl).2.2.2.2
      | lets | gives =>
        rw [releaseArc_operation hlive] at hl
        exact absurd hl hlive
      | fails => cases hl
      | _ => exact absurd hl hlive
  · exact .inl htrue
  · exact .inr (hm.finished (hi.taking t (Multiset.mem_cons_self t rest) htaking))

theorem TasksInv.destroying_step (h : Reachable step allowed start.config ⟨s, t ::ₘ rest⟩)
    (hi : TasksInv ⟨s, t ::ₘ rest⟩) (hm : Move s t s' ts) :
    ∀ u ∈ ts + rest, u.destroying = true → Connected s' → Answered s' := by
  have hown := ownershipInv_reachable h
  refine forall_step hi.destroying ?_ ?_
  · intro hold u hu hc hconnected
    rcases hm.destroying u hu hc with hdestroying | ⟨who, rfl, hposts⟩
    · rcases hm.connected_by hown hconnected with hbefore | ⟨rfl, -⟩
      · exact hm.answered (hold hdestroying hbefore)
      · cases hdestroying
    · rcases hm.connected_by hown hconnected with hbefore | ⟨heq, -⟩
      · rcases hposts with hstopped | hposts
        · exact hm.answered (hi.answered_of_stopped h hbefore hstopped)
        · exact answered_of_posted hbefore rfl hposts
      · cases heq
  · intro u hu hold hc hconnected
    rcases hm.connected_by hown hconnected with hbefore | ⟨rfl, -⟩
    · exact hm.answered (hold hc hbefore)
    · -- there is no second owner
      have hle := add_le_total (w := Thread.owner) (t := .opening .connect) hu
      have hone : total Thread.owner (Thread.opening Open.connect ::ₘ rest) ≤ 1 := hown.owner
      have hu1 : u.owner = 1 := by
        unfold Thread.destroying at hc
        split at hc <;> first | rfl | cases hc
      rw [hu1] at hle
      change 1 + 1 ≤ _ at hle
      omega

theorem TasksInv.cleared_step (h : Reachable step allowed start.config ⟨s, t ::ₘ rest⟩)
    (hi : TasksInv ⟨s, t ::ₘ rest⟩) (hm : Move s t s' ts) (hc : Connected s')
    (hnull : s'.control.native = false) :
    Answered s' ∨ ∃ who, .destroy (.post who false) ∈ ts + rest := by
  rcases hm.pointer hnull with hold | ⟨who, hmem⟩
  · rcases hm.connected_by (ownershipInv_reachable h) hc with hbefore | ⟨rfl, -, -, -, hnative, -⟩
    · rcases hi.cleared hbefore hold with hanswered | ⟨who, hthread⟩
      · exact .inl (hm.answered hanswered)
      · rcases Multiset.mem_cons.mp hthread with rfl | hrest
        · -- the `Destroy` is posted now
          left
          rcases hm.destroys with hs | hposts
          · exact hm.answered (hi.answered_of_stopped h hbefore hs)
          · exact answered_of_posted hbefore rfl hposts
        · exact .inr ⟨who, Multiset.mem_add.mpr (.inr hrest)⟩
    · rw [hnative] at hold
      cases hold
  · exact .inr ⟨who, Multiset.mem_add.mpr (.inl (Multiset.mem_coe.mpr hmem))⟩

theorem TasksInv.socket_step (hi : TasksInv ⟨s, t ::ₘ rest⟩) (hm : Move s t s' ts)
    (hown : OwnershipInv ⟨s, t ::ₘ rest⟩) (hgone : s'.native.socket = .gone)
    (hc : Connected s') : Answered s' := by
  rcases hm.socketGone hgone with hold | ⟨who, rfl⟩
  · rcases hm.connected_by hown hc with hbefore | ⟨-, -, -, hlive, -⟩
    · exact hm.answered (hi.socket hold hbefore)
    · rw [hlive] at hold
      cases hold
  · rcases hm.connected_by hown hc with hbefore | ⟨heq, -⟩
    · exact hm.answered (hi.destroying _ (Multiset.mem_cons_self _ rest) rfl hbefore)
    · cases heq

/-- The native object of a connected socket has an `Arc` of the context until it is gone. -/
theorem TasksInv.socket_of_last (hi : TasksInv ⟨s, t ::ₘ rest⟩)
    (hown : OwnershipInv ⟨s, t ::ₘ rest⟩) (hc : Connected s) (hlive : s.context.life = .live)
    (hone : s.context.arcs = 1) (harcs : 1 ≤ t.arcs) : s.native.socket = .gone := by
  obtain ⟨hcallbacks, -, hborn⟩ := hi.connected hc
  have hledger : total Thread.arcs (t ::ₘ rest) + s.rawArc ≤ s.context.arcs :=
    hown.arcs (by rw [show s.context.life = .live from hlive]; nofun)
  rw [total_cons] at hledger
  have hraw : s.rawArc = 0 := by omega
  unfold Shared.rawArc at hraw
  cases hsocket : s.native.socket with
  | unborn => exact absurd hsocket hborn
  | live =>
    rw [if_pos ⟨hsocket, hcallbacks⟩] at hraw
    cases hraw
  | gone => rfl

theorem TasksInv.context_step (hi : TasksInv ⟨s, t ::ₘ rest⟩) (hm : Move s t s' ts)
    (hown : OwnershipInv ⟨s, t ::ₘ rest⟩) (hgone : s'.context.life = .gone)
    (hc : Connected s') : Answered s' := by
  rcases hm.connected_by hown hc with hbefore | ⟨rfl, -, -, -, -, hlive⟩
  · rcases hm.context hgone with hold | rfl | ⟨hlive, hone, harcs, hnative⟩
    · exact hm.answered (hi.context hold hbefore)
    · -- a socket without callbacks is not connected
      obtain ⟨-, -, hcallbacks, -⟩ :=
        (hown.stands _ (Multiset.mem_cons_self _ rest)).stage rfl
      have hattached : s.native.callbacks = true := (hi.connected hbefore).1
      rw [hcallbacks] at hattached
      cases hattached
    · have hsocket := hi.socket_of_last hown hbefore hlive hone harcs
      exact hm.answered (hi.socket hsocket hbefore)
  · -- `Connect` keeps the context
    have hkept : s'.context.life = s.context.life := by cases hm <;> rfl
    rw [hkept, hlive] at hgone
    cases hgone

end

theorem tasksInv_step (h : Reachable step allowed start.config c) (hi : TasksInv c)
    (hs : Step step allowed c c') : TasksInv c' := by
  have hown := ownershipInv_reachable h
  obtain ⟨_, hn⟩ := hs
  have hm := step_move hn
  exact {
    fifo := hm.fifo hi.fifo
    connected := hi.connected_step hm hown
    taking := forall_step hi.taking (fun _ => hm.taking) fun u _ hold hc => hm.finished (hold hc)
    operation := hi.operation_step hm hown
    destroying := hi.destroying_step h hm
    cleared := hi.cleared_step h hm
    socket := hi.socket_step hm hown
    context := hi.context_step hm hown }

theorem tasksInv_reachable (h : Reachable step allowed start.config c) : TasksInv c :=
  h.invariant tasksInv_init (fun hr hi hs => tasksInv_step hr hi hs)

end TokioCronet.WebSocket
