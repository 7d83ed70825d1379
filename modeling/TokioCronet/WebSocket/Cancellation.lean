import TokioCronet.WebSocket.Tasks

/-!
# Cancelling a socket that is being opened

A shutdown cancels a socket by posting a `Close`. `open_websocket` publishes the pointer
and registers before it posts `Connect`, and never looks at `closing` again, so a shutdown
that comes in between posts its `Close` in front of the `Connect`, where it does nothing.

In a run in which a shutdown does not post its `Close` into that window, and does not pass
over a socket between `clear_native` and its `Destroy`, the cancellation is kept.
-/

namespace TokioCronet.WebSocket

open Pool
open Request (Lifetime)

variable {s s' : Shared} {t u : Thread} {ts : List Thread}

/-- **What a shutdown that has cancelled leaves behind**: a `Close` or `Destroy` that is
queued behind the `Connect` or has run after it, or a finished terminal callback; and
without a `Connect`, `open_websocket` reports the shutdown. -/
structure CancelKept (s : Shared) : Prop where
  /-- A socket that is connected will be closed, or has ended. -/
  connected : Event.cancelled ∈ s.trace → Event.posted .connect ∈ s.trace →
    Followed (ran s.trace ++ s.native.tasks) ∨ ∃ result, Event.finished result ∈ s.trace
  /-- A socket that is not connected is refused. -/
  refused : Event.cancelled ∈ s.trace → Event.posted .connect ∉ s.trace →
    Event.created ∈ s.trace → ∀ result, Event.returned result ∈ s.trace →
      result = .error .engineShutdown

/-- The `Close` of a shutdown is not posted while `open_websocket` stands between
`register` and `Connect`; and a shutdown that finds the pointer cleared finds the
`Destroy` posted. -/
def CancelsInTime : Policy Shared Thread Choice := fun c t _ =>
  (t = .cancel (.close .shutdown) →
    .opening .setCallbacks ∉ c.threads ∧ .opening .connect ∉ c.threads) ∧
  (t = .cancel (.load .shutdown) → c.shared.control.native = false →
    ∀ who, .destroy (.post who false) ∉ c.threads)

/-! ## Before the `Connect` -/

/-- A position that a socket without a `Connect` can be in. -/
def Thread.early : Thread → Bool
  | .callback _ _ | .socket _ | .opening .await => false
  | .destroy (.clear who) | .destroy (.post who _) | .destroy (.wait who _)
  | .destroy (.delete who) => who == .refused
  | _ => true

/-- A socket whose `Connect` was not posted has no channel and no callback, and the call
that made it is refused. -/
structure Early (c : Config Shared Thread) : Prop where
  /-- Its threads have not come that far. -/
  threads : ∀ t ∈ c.threads, t.early = true
  /-- It has no channel. -/
  channel : c.shared.native.channel = false
  /-- Only `Close` and `Destroy` were posted. -/
  tasks : ∀ task ∈ posted c.shared.trace, task.ends = true
  /-- It has had no terminal callback. -/
  finished : ¬ Finished c.shared
  /-- The call that made it has not returned. -/
  pending : ∀ t ∈ c.threads, t.owner = 1 → ∀ result, Event.returned result ∉ c.shared.trace
  /-- A socket that was created is there, or was. -/
  born : Event.created ∈ c.shared.trace → c.shared.native.socket ≠ .unborn
  /-- If the call returns, it is refused. -/
  returned : Event.created ∈ c.shared.trace → ∀ result, Event.returned result ∈ c.shared.trace →
    result = .error .engineShutdown

variable {allowed : Policy Shared Thread Choice} {c c' : Config Shared Thread}

theorem early_init : Early start.config where
  threads := by
    intro t ht
    simp only [start, Listed.config, Multiset.mem_coe, List.mem_cons, List.not_mem_nil,
      or_false] at ht
    rcases ht with rfl | rfl | rfl | rfl <;> rfl
  channel := rfl
  tasks := by
    intro task h
    cases h
  finished := by
    rintro ⟨result, h⟩
    cases h
  pending := by
    intro t _ _ result h
    cases h
  born := by
    intro h
    cases h
  returned := by
    intro h
    cases h

/-- What the position of an early thread leads to, as long as there is no `Connect`. -/
theorem Move.early (hm : Move s t s' ts) (ht : t.early = true) (hc : s.native.channel = false)
    (htasks : ∀ task ∈ s.native.tasks, task.ends = true)
    (hrunning : t = .opening .connect → s.native.stopped = false) (hconnected : ¬ Connected s') :
    ∀ u ∈ ts, u.early = true := by
  intro u hu
  induction hm with
  | engine | stops =>
    obtain ⟨v, -, rfl⟩ := List.mem_map.mp hu
    rfl
  | connects hs =>
    refine absurd ?_ hconnected
    unfold Connected
    rw [posted_post]
    change _ ∈ _ ++ s.posts .connect
    rw [posts_of_running hs]
    exact List.mem_append_right _ (List.mem_singleton_self _)
  | unstarted hs =>
    rw [hrunning rfl] at hs
    cases hs
  | faults hq hfault =>
    have hends := htasks _ (hq ▸ List.mem_cons_self)
    cases hfault <;> cases hends
  | event hs =>
    rw [hc] at hs
    cases hs
  | fails =>
    rcases List.mem_append.mp hu with hu | hu
    · rw [mem_operationDrop hu]
      rfl
    · obtain rfl := List.mem_singleton.mp hu
      rfl
  | gives =>
    rw [mem_releaseArc hu]
    rfl
  | @deletes who =>
    cases who <;>
      simp only [Destroyer.releases, List.mem_cons, List.not_mem_nil, or_false] at hu <;>
      rcases hu with rfl | rfl | rfl <;> rfl
  | @resets who again | @asks who again | @waits who again =>
    obtain rfl := List.mem_singleton.mp hu
    cases again <;> exact ht
  | clears =>
    obtain rfl := List.mem_singleton.mp hu
    exact ht
  | opens | rejects | leaks | receives | ends | begins | drops | sendFails | calls | ignores
  | enters | answers | delivers | finishes | takes | lets | returnsNetwork | returnsConnect
  | returnsSocket => cases ht
  | _ =>
    obtain rfl := List.mem_singleton.mp hu
    rfl

/-- Without a `Connect` no channel is made. -/
theorem Move.channel (hm : Move s t s' ts) (ht : t.early = true) (hc : s.native.channel = false)
    (htasks : ∀ task ∈ s.native.tasks, task.ends = true) : s'.native.channel = false := by
  induction hm with
  | runsConnect hq =>
    have hends := htasks _ (hq ▸ List.mem_cons_self)
    cases hends
  | resets | runsDestroy => rfl
  | returnsNetwork => cases ht
  | lets | gives =>
    rw [releaseArc_native]
    exact hc
  | _ => exact hc

/-- Before the `Connect` nothing finishes the context. -/
theorem not_finished_early {result : Result Unit} (ht : t.early = true) :
    ¬ t.Records (.finished result) := by
  intro hr
  unfold Thread.Records at hr
  split at hr <;> simp_all [Thread.early]

/-- A call that has no socket yet, or is refused one, returns. -/
theorem returned_early {result : Result Unit} (ht : t.early = true)
    (hr : t.Records (.returned result)) :
    t = .opening .create ∨ t = .destroy (.delete .refused) ∧ result = .error .engineShutdown := by
  unfold Thread.Records at hr
  split at hr <;> simp_all [Thread.early, Destroyer.returns]

theorem created_of_records (hr : t.Records .created) : t = .opening .create := by
  unfold Thread.Records at hr
  split at hr <;> simp_all

theorem Move.created (hm : Move s t s' ts) (h : Event.created ∈ s'.trace) :
    Event.created ∈ s.trace ∨ t = .opening .create ∧ s'.native.socket = .live := by
  rcases hm.records h with hold | hr
  · exact .inl hold
  · obtain rfl := created_of_records hr
    cases hm with
    | creates => exact .inr ⟨rfl, rfl⟩
    | fails => exact .inl ((mem_append_one h).resolve_right nofun)

/-- A call that returns early gives up the socket, which was never made or is refused. -/
theorem Move.returned (hm : Move s t s' ts) (ht : t.early = true) {result : Result Unit}
    (h : Event.returned result ∈ s'.trace) :
    Event.returned result ∈ s.trace ∨ (∀ u ∈ ts, u.owner = 0) ∧
      (t = .opening .create ∧ (Event.created ∈ s'.trace → Event.created ∈ s.trace) ∨
        result = .error .engineShutdown) := by
  rcases hm.records h with hold | hr
  · exact .inl hold
  · rcases returned_early ht hr with rfl | ⟨rfl, heq⟩
    · cases hm with
      | creates => exact .inl ((mem_append_one h).resolve_right nofun)
      | fails =>
        refine .inr ⟨?_, .inl ⟨rfl, fun hc => (mem_append_one hc).resolve_right nofun⟩⟩
        intro u hu
        rcases List.mem_append.mp hu with hu | hu
        · rw [mem_operationDrop hu]
          rfl
        · rw [List.mem_singleton.mp hu]
          rfl
    · cases hm with
      | deletes =>
        refine .inr ⟨?_, .inr heq⟩
        intro u hu
        simp only [Destroyer.releases, List.mem_cons, List.not_mem_nil, or_false] at hu
        rcases hu with rfl | rfl <;> rfl

theorem connected_mono (hm : Move s t s' ts) (h : Connected s) : Connected s' :=
  mem_posted.mpr (hm.grows.subset (mem_posted.mp h))

theorem early_step (h : Reachable step allowed start.config c)
    (hi : ¬ Connected c.shared → Early c) (hs : Step step allowed c c')
    (hconnected : ¬ Connected c'.shared) : Early c' := by
  have hown := ownershipInv_reachable h
  have htasks := tasksInv_reachable h
  obtain ⟨_, hn⟩ := hs
  rename_i s s' t ts rest ch _
  have hm : Move s t s' ts := step_move hn
  have he := hi (fun hc => hconnected (connected_mono hm hc))
  have hmem : t ∈ t ::ₘ rest := Multiset.mem_cons_self t rest
  have hself := hown.stands t hmem
  have ht := he.threads t hmem
  have hends : ∀ task ∈ s.native.tasks, task.ends = true := by
    intro task hq
    refine he.tasks task ?_
    rw [htasks.fifo]
    exact List.mem_append_right _ hq
  have hrunning : t = .opening .connect → s.native.stopped = false := by
    rintro rfl
    by_contra hstopped
    have hoperation : s.context.operation = false :=
      operation_of_stopped h (by simpa using hstopped)
    obtain ⟨-, hlive, -⟩ := hself.stage rfl
    rcases htasks.operation hlive with ho | hfinished
    · change s.context.operation = true at ho
      rw [hoperation] at ho
      cases ho
    · exact he.finished hfinished
  refine ⟨?_, ?_, ?_, ?_, ?_, ?_, ?_⟩
  · refine forall_step he.threads ?_ (fun _ _ hold => hold)
    intro _
    exact hm.early ht he.channel hends hrunning hconnected
  · exact hm.channel ht he.channel hends
  · intro task htask
    change task ∈ posted s'.trace at htask
    rcases hm.posts with heq | ⟨new, hnew, -, heq⟩
    · rw [heq] at htask
      exact he.tasks task htask
    · rw [heq] at htask
      rcases List.mem_append.mp htask with hold | hone
      · exact he.tasks task hold
      · obtain rfl := List.mem_singleton.mp hone
        -- a new task is a `Connect` only if the socket is connected now
        cases task with
        | connect =>
          refine absurd ?_ hconnected
          change NetTask.connect ∈ posted s'.trace
          rw [heq]
          exact htask
        | send =>
          unfold Thread.task at hnew
          split at hnew <;> simp_all [Thread.early]
        | close | destroy => rfl
  · rintro ⟨result, hfinished⟩
    rcases hm.records hfinished with hold | hr
    · exact he.finished ⟨result, hold⟩
    · exact not_finished_early ht hr
  · have hone := hown.owner
    change total Thread.owner (t ::ₘ rest) ≤ 1 at hone
    intro u hu ho result hreturned
    rcases hm.returned ht hreturned with hold | ⟨hnone, -⟩
    · -- who owns the socket now had it before
      rcases Multiset.mem_add.mp hu with hu | hu
      · have hle : u.owner ≤ total Thread.owner (ts : Multiset Thread) :=
          le_total (Multiset.mem_coe.mpr hu)
        have hpass := hm.owner
        rw [total_coe] at hle
        rw [total_cons] at hone
        exact he.pending t hmem (by omega) result hold
      · exact he.pending u (Multiset.mem_cons_of_mem hu) ho result hold
    · rcases Multiset.mem_add.mp hu with hu | hu
      · rw [hnone u (Multiset.mem_coe.mp hu)] at ho
        cases ho
      · have htwo := add_le_total (w := Thread.owner) (t := t) hu
        rcases hm.records hreturned with hold | hr
        · exact he.pending u (Multiset.mem_cons_of_mem hu) ho result hold
        · have hto : t.owner = 1 := by
            rcases returned_early ht hr with rfl | ⟨rfl, -⟩ <;> rfl
          omega
  · intro hcreated
    rcases hm.created hcreated with hold | ⟨-, hlive⟩
    · exact hm.socketBorn (he.born hold)
    · change s'.native.socket ≠ .unborn
      rw [hlive]
      nofun
  · intro hcreated result hreturned
    rcases hm.returned ht hreturned with hold | ⟨-, ⟨rfl, hkept⟩ | heq⟩
    · rcases hm.created hcreated with hbefore | ⟨rfl, -⟩
      · exact he.returned hbefore result hold
      · exact absurd hold (he.pending _ hmem rfl result)
    · obtain ⟨hunborn, -⟩ := hself.stage rfl
      exact absurd hunborn (he.born (hkept hcreated))
    · exact heq

theorem early_reachable (h : Reachable step allowed start.config c) :
    ¬ Connected c.shared → Early c :=
  h.invariant (P := fun c => ¬ Connected c.shared → Early c) (fun _ => early_init)
    (fun hr hi hs => early_step hr hi hs)

/-! ## The cancellation -/

/-- `open_websocket` is in the window between `register` and `Connect`. -/
def Thread.connecting : Thread → Bool
  | .opening .setCallbacks | .opening .connect => true
  | _ => false

/-- What a shutdown that has cancelled can rely on. -/
structure CancelledInv (c : Config Shared Thread) : Prop where
  /-- A shutdown that has cancelled has closed the engine. -/
  closing : Event.cancelled ∈ c.shared.trace → c.shared.engine.closing = true
  /-- Nobody will connect any more. -/
  connecting : Event.cancelled ∈ c.shared.trace → ∀ t ∈ c.threads, t.connecting = false
  /-- A socket that is connected was answered with a `Close` or `Destroy`, or has ended. -/
  answered : Event.cancelled ∈ c.shared.trace → Connected c.shared → Answered c.shared

theorem cancelledInv_init : CancelledInv start.config where
  closing := by
    intro h
    cases h
  connecting := by
    intro h
    cases h
  answered := by
    intro h
    cases h

theorem cancelled_of_records (hr : t.Records .cancelled) :
    t = .snapshot ∨ t = .cancel (.load .shutdown) ∨ t = .cancel (.close .shutdown) := by
  unfold Thread.Records at hr
  split at hr <;> simp_all

theorem Move.closing (hm : Move s t s' ts) (h : s.engine.closing = true) :
    s'.engine.closing = true := by
  induction hm with
  | engine hn => exact Engine.step_closing_mono hn h
  | stops hn => exact Engine.step_closing_mono hn h
  | lets | gives =>
    rw [releaseArc_engine]
    exact h
  | _ => exact h

/-- Once `closing` is set nobody enters the window. -/
theorem Move.connecting (hm : Move s t s' ts) (ht : t.connecting = false)
    (hc : s.engine.closing = true) : ∀ u ∈ ts, u.connecting = false := by
  intro u hu
  induction hm with
  | engine | stops =>
    obtain ⟨v, -, rfl⟩ := List.mem_map.mp hu
    rfl
  | accepts hopen =>
    rw [hc] at hopen
    cases hopen
  | attaches => cases ht
  | fails | takes =>
    rcases List.mem_append.mp hu with hu | hu
    · rw [mem_operationDrop hu]
      rfl
    · obtain rfl := List.mem_singleton.mp hu
      rfl
  | lets =>
    rcases List.mem_append.mp hu with hu | hu
    · rw [mem_releaseArc hu]
      rfl
    · obtain rfl := List.mem_singleton.mp hu
      rfl
  | gives =>
    rw [mem_releaseArc hu]
    rfl
  | @deletes who =>
    cases who <;>
      simp only [Destroyer.releases, List.mem_cons, List.not_mem_nil, or_false] at hu <;>
      rcases hu with rfl | rfl | rfl <;> rfl
  | opens | leaks =>
    simp only [List.mem_cons, List.not_mem_nil, or_false] at hu
    rcases hu with rfl | rfl <;> rfl
  | @resets who again | @asks who again | @waits who again =>
    obtain rfl := List.mem_singleton.mp hu
    cases again <;> rfl
  | _ =>
    obtain rfl := List.mem_singleton.mp hu
    rfl

/-- In the window the control is listed, alive and has the pointer. -/
theorem holds_of_connecting (hstands : Stands s t) (hc : t.connecting = true) :
    s.context.life = .live ∧ s.control.native = true ∧ s.registered = true := by
  unfold Thread.connecting at hc
  split at hc
  · obtain ⟨-, h2, -, h4, h5⟩ := hstands.stage rfl
    exact ⟨h2, h4, h5 rfl⟩
  · obtain ⟨-, h2, -, h4, h5⟩ := hstands.stage rfl
    exact ⟨h2, h4, h5 rfl⟩
  · cases hc

/-- **The step that ends the cancel loop leaves the socket answered for**, and nobody in
the window. -/
theorem cancels {rest : Multiset Thread} (h : Reachable step allowed start.config ⟨s, t ::ₘ rest⟩)
    (hm : Move s t s' ts) {ch : Choice} (hpolicy : CancelsInTime ⟨s, t ::ₘ rest⟩ t ch)
    (hold : Event.cancelled ∉ s.trace) (hnew : Event.cancelled ∈ s'.trace) :
    s.engine.closing = true ∧ (∀ u ∈ t ::ₘ rest, u.connecting = false) ∧
      (Connected s → Answered s') := by
  have hown := ownershipInv_reachable h
  have hi := tasksInv_reachable h
  have hmem : t ∈ t ::ₘ rest := Multiset.mem_cons_self t rest
  rcases cancelled_of_records ((hm.records hnew).resolve_left hold) with rfl | rfl | rfl
  · refine ⟨closing_of_seen h hmem rfl, ?_⟩
    cases hm with
    | finds => exact absurd hnew hold
    | misses hmiss =>
      refine ⟨?_, ?_⟩
      · intro u hu
        by_contra hc
        obtain ⟨h1, -, h3⟩ := holds_of_connecting (hown.stands u hu) (by simpa using hc)
        exact hmiss ⟨h3, h1⟩
      · intro hc
        have hanswered : Answered s := by
          cases hl : s.context.life with
          | unborn =>
            have hcallbacks := (hown.unborn hl).callbacks
            rw [(hi.connected hc).1] at hcallbacks
            cases hcallbacks
          | live => exact absurd ⟨(hi.connected hc).2.1, hl⟩ hmiss
          | gone => exact hi.context hl hc
        exact Move.answered (.misses hmiss) hanswered
  · refine ⟨closing_of_seen h hmem rfl, ?_⟩
    cases hm with
    | loads => exact absurd hnew hold
    | loadsNull hnull =>
      refine ⟨?_, ?_⟩
      · intro u hu
        by_contra hc
        obtain ⟨-, h2, -⟩ := holds_of_connecting (hown.stands u hu) (by simpa using hc)
        change s.control.native = true at h2
        rw [hnull] at h2
        cases h2
      · intro hc
        rcases hi.cleared hc hnull with hanswered | ⟨who, hthread⟩
        · exact Move.answered (.loadsNull hnull) hanswered
        · exact absurd hthread (hpolicy.2 rfl hnull who)
  · refine ⟨closing_of_seen h hmem rfl, ?_⟩
    obtain ⟨hset, hconnect⟩ := hpolicy.1 rfl
    refine ⟨?_, ?_⟩
    · intro u hu
      by_contra hc
      have hc' : u.connecting = true := by simpa using hc
      unfold Thread.connecting at hc'
      split at hc'
      · exact hset hu
      · exact hconnect hu
      · cases hc'
    · intro hc
      rcases hm.posts with heq | ⟨task, htask, -, heq⟩
      · by_cases hs : s.native.stopped = true
        · exact hm.answered (hi.answered_of_stopped h hc hs)
        · -- the `Close` was posted, so the tasks did grow
          cases hm with
          | closes =>
            rw [posted_append, posted_post, posts_of_running (Bool.eq_false_iff.mpr hs)] at heq
            have hlength := congrArg List.length heq
            simp [posted] at hlength
      · obtain rfl := Option.some.inj htask
        exact answered_of_posted hc rfl heq

theorem cancelledInv_step (h : Reachable step CancelsInTime start.config c)
    (hi : CancelledInv c) (hs : Step step CancelsInTime c c') : CancelledInv c' := by
  obtain ⟨hpolicy, hn⟩ := hs
  rename_i s s' t ts rest ch
  have hm : Move s t s' ts := step_move hn
  have hmem : t ∈ t ::ₘ rest := Multiset.mem_cons_self t rest
  -- before the step the loop was done, or the step ends it
  have hbefore : Event.cancelled ∈ s'.trace → s.engine.closing = true ∧
      (∀ u ∈ t ::ₘ rest, u.connecting = false) ∧ (Connected s → Answered s') := by
    intro hnew
    by_cases hold : Event.cancelled ∈ s.trace
    · exact ⟨hi.closing hold, hi.connecting hold, fun hc => hm.answered (hi.answered hold hc)⟩
    · exact cancels h hm hpolicy hold hnew
  refine ⟨?_, ?_, ?_⟩
  · intro hnew
    exact hm.closing (hbefore hnew).1
  · intro hnew
    obtain ⟨hclosing, hconnecting, -⟩ := hbefore hnew
    exact forall_step hconnecting (fun ht => hm.connecting ht hclosing) (fun _ _ hold => hold)
  · intro hnew hc
    obtain ⟨-, hconnecting, hanswered⟩ := hbefore hnew
    rcases hm.connected hc with hold | rfl
    · exact hanswered hold
    · have hwindow := hconnecting _ hmem
      cases hwindow

theorem cancelledInv_reachable (h : Reachable step CancelsInTime start.config c) :
    CancelledInv c :=
  h.invariant cancelledInv_init (fun hr hi hs => cancelledInv_step hr hi hs)

/-- **The cancellation of a shutdown is kept** in every run in which it is not posted into
the window between `register` and `Connect`. -/
theorem cancel_kept (h : Reachable step CancelsInTime start.config c) : CancelKept c.shared where
  connected := by
    intro hcancelled hposted
    have hanswered := (cancelledInv_reachable h).answered hcancelled (mem_posted.mpr hposted)
    unfold Answered at hanswered
    rw [(tasksInv_reachable h).fifo] at hanswered
    exact hanswered
  refused := by
    intro _ hposted hcreated result hreturned
    have hearly := early_reachable h (fun hc => hposted (mem_posted.mp hc))
    exact hearly.returned hcreated result hreturned

/-! ## Runs -/

/-- `CancelsInTime` as a test. -/
def cancelsInTime (c : Listed Shared Thread) (t : Thread) (_ : Choice) : Bool :=
  (!(t == .cancel (.close .shutdown)) ||
    !(c.threads.contains (.opening .setCallbacks) || c.threads.contains (.opening .connect))) &&
  (!(t == .cancel (.load .shutdown)) || c.shared.control.native ||
    c.threads.all fun t =>
      match t with
      | .destroy (.post _ false) => false
      | _ => true)

theorem cancelsInTime_sound (c : Listed Shared Thread) (t : Thread) (ch : Choice)
    (h : cancelsInTime c t ch = true) : CancelsInTime c.config t ch := by
  unfold cancelsInTime at h
  obtain ⟨h1, h2⟩ := Bool.and_eq_true_iff.mp h
  refine ⟨?_, ?_⟩
  · rintro rfl
    have hnone : ¬ (c.threads.contains (.opening .setCallbacks) ||
        c.threads.contains (.opening .connect)) = true := by simpa using h1
    rw [Bool.or_eq_true, List.contains_iff_mem, List.contains_iff_mem] at hnone
    exact ⟨fun hmem => hnone (.inl (Multiset.mem_coe.mp hmem)),
      fun hmem => hnone (.inr (Multiset.mem_coe.mp hmem))⟩
  · rintro rfl hnull who hmem
    change c.shared.control.native = false at hnull
    rw [hnull] at h2
    have hall := List.all_eq_true.mp (by simpa using h2) _ (Multiset.mem_coe.mp hmem)
    cases hall

/-- A shutdown comes when the `WebSocket` is there. -/
theorem cancel_kept_open :
    let c := (Pool.play step cancelsInTime start (opens ++ shutsDown)).config
    Event.cancelled ∈ c.shared.trace ∧ Event.posted .connect ∈ c.shared.trace ∧
      CancelKept c.shared := by
  refine ⟨by decide +kernel, by decide +kernel, ?_⟩
  exact cancel_kept (play_reachable cancelsInTime_sound (opens ++ shutsDown) Reachable.start)

/-- `open_websocket` has registered when a shutdown posts its `Close`; only then it posts
its `Connect`. -/
def closesFirst : Schedule :=
  [(.engine (.beginLoad .socket), engineGo 6 ++ [.engine .keep] ++ go 4)] ++ shutsDown ++
  [(.opening .setCallbacks, go 2), (.network, [.run, .run])]

theorem cancel_spent_before_connect :
    ∃ c, Reachable step (fun _ _ _ => True) start.config c ∧
      c.shared.context.operation = true ∧ Event.cancelled ∈ c.shared.trace ∧
      ran c.shared.trace ++ c.shared.native.tasks = [.close 1001 "", .connect] ∧
      .opening .await ∈ c.threads ∧ ¬ CancelKept c.shared := by
  have hrun : let c := (Pool.play step unchecked start closesFirst).config
      c.shared.context.operation = true ∧ Event.cancelled ∈ c.shared.trace ∧
      ran c.shared.trace ++ c.shared.native.tasks = [.close 1001 "", .connect] ∧
      .opening .await ∈ c.threads ∧ Event.posted .connect ∈ c.shared.trace ∧
      c.shared.trace.all (fun e => match e with | .finished _ => false | _ => true) = true := by
    decide +kernel
  obtain ⟨hoperation, hcancelled, htasks, hawait, hposted, hnone⟩ := hrun
  refine ⟨(Pool.play step unchecked start closesFirst).config,
    play_reachable (fun _ _ _ _ => trivial) closesFirst Reachable.start,
    hoperation, hcancelled, htasks, hawait, ?_⟩
  intro hkept
  rcases hkept.connected hcancelled hposted with ⟨l, a, r, heq, rfl, b, hb, -⟩ | ⟨result, hmem⟩
  · -- nothing comes after the `Connect`
    rw [htasks] at heq
    obtain ⟨rfl, hr⟩ : l = [.close 1001 ""] ∧ r = [] := by
      rcases l with _ | ⟨x, _ | ⟨y, l⟩⟩
      · cases heq
      · cases heq
        exact ⟨rfl, rfl⟩
      · simp at heq
    rw [hr] at hb
    cases hb
  · have hfalse := List.all_eq_true.mp hnone _ hmem
    cases hfalse

end TokioCronet.WebSocket
