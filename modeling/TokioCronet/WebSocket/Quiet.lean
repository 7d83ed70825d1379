import TokioCronet.WebSocket.Opening

/-!
# Destroying waits for the network thread

`Cronet_RS_WebSocket_Destroy` posts its task behind everything that the owner of the socket
has posted, and waits until it was run. From then on the network thread has nothing to
report: the channel is gone, and what may still come into the queue is the `Close` of a
canceler. Without a `CronetContext` it does not wait; there the stop of the engine has joined
the network thread, which is assumed of Cronet here.
-/

namespace TokioCronet.WebSocket

open Pool
open Request (Lifetime)

variable {s s' : Shared} {t u : Thread} {ts : List Thread} {ch : Choice}

/-- Stopping the engine joins the network thread, which takes no step after that. -/
def NetworkJoined : Policy Shared Thread Choice := fun c t ch =>
  (t = .network → c.shared.native.stopped = false) ∧
  ∀ r code, t = .engine (.nativeStop r) → ch = .engine (.result code) → check code = .ok () →
    .network ∈ c.threads

/-- Whether the network thread makes the call. -/
def Caller.reports : Caller → Bool
  | .network _ => true
  | _ => false

/-- A callback on the network thread. -/
def Thread.reports : Thread → Bool
  | .callback _ caller => caller.reports
  | _ => false

/-- The network thread has nothing left that it could report. -/
def Shared.Settled (s : Shared) : Prop :=
  s.native.stopped = true ∨
    s.native.channel = false ∧ ∀ task ∈ s.native.tasks, task.ends = true

/-- It reports nothing, and never will. -/
structure Quiet (c : Config Shared Thread) : Prop where
  /-- No thread is about to report. -/
  threads : ∀ t ∈ c.threads, t.reports = false
  /-- No task and no channel will. -/
  settled : c.shared.Settled

/-- The task of the destruction is queued, and the owner posts nothing behind it. -/
def Closing (tasks : List NetTask) : Prop :=
  ∃ l r, tasks = l ++ .destroy :: r ∧ .destroy ∉ l ∧ ∀ task ∈ r, task.ends = true

/-- `Destroy` waits for the first time. -/
def Thread.waits : Thread → Bool
  | .destroy (.wait _ false) => true
  | _ => false

/-- It has waited before. -/
def Thread.waited : Thread → Bool
  | .destroy (.post _ true) | .destroy (.wait _ true) | .destroy (.delete _) => true
  | _ => false

/-! ## What one step does -/

theorem owner_of_waits (h : t.waits = true ∨ t.waited = true) : t.owner = 1 := by
  cases t with
  | destroy => rfl
  | _ => rcases h with h | h <;> cases h

theorem destroying_of_waits (h : t.waits = true ∨ t.waited = true) : t.destroying = true := by
  cases t with
  | destroy p =>
    cases p with
    | clear => rcases h with h | h <;> cases h
    | post who again =>
      cases again
      · rcases h with h | h <;> cases h
      · rfl
    | _ => rfl
  | _ => rcases h with h | h <;> cases h

/-- Only who keeps a socket posts what does not end it. -/
theorem keeps_of_task {task : NetTask} (h : t.task = some task) (hends : task.ends = false) :
    t.keeps ∧ t.stage = .attached true true := by
  unfold Thread.task at h
  split at h
  · exact ⟨⟨rfl, rfl⟩, rfl⟩
  · cases h
    cases hends
  · exact ⟨⟨rfl, rfl⟩, rfl⟩
  · cases h
    cases hends
  · cases h

theorem runs_of_reports (h : t.reports = true) : t.runs = 1 := by
  cases t with
  | callback p caller =>
    cases caller with
    | network => rfl
    | _ => cases h
  | _ => cases h

/-- Beside the network thread no callback runs on it. -/
theorem quiet_of_network {rest : Multiset Thread} (hruns : total Thread.runs (t ::ₘ rest) ≤ 1)
    (ht : t.runs = 1) : ∀ u ∈ rest, u.reports = false := by
  intro u hu
  by_contra hreports
  have hrun := runs_of_reports (by simpa using hreports)
  have htwo := add_le_total (w := Thread.runs) (t := t) hu
  omega

theorem settled_post {task : NetTask} (hends : task.ends = true ∨ s.native.stopped = true)
    (h : s.Settled) : (s.post task).Settled := by
  by_cases hs : s.native.stopped = true
  · exact .inl hs
  · obtain ⟨hc, htasks⟩ := h.resolve_left hs
    refine .inr ⟨hc, ?_⟩
    intro queued hq
    rcases List.mem_append.mp hq with hq | hq
    · exact htasks queued hq
    · rw [posts_of_running (Bool.eq_false_iff.mpr hs)] at hq
      rw [List.mem_singleton.mp hq]
      exact hends.resolve_right hs

theorem settled_ran {task : NetTask} {tasks : List NetTask} (hq : s.native.tasks = task :: tasks)
    (h : s.Settled) : (s.ran task tasks).Settled := by
  refine h.imp_right (fun ⟨hc, htasks⟩ => ⟨hc, ?_⟩)
  intro queued hmem
  exact htasks queued (hq ▸ List.mem_cons_of_mem task hmem)

/-- **Once nothing is left to report, nothing is reported.** -/
theorem Move.settled (hm : Move s t s' ts) (h : s.Settled)
    (hpost : ∀ task, t.task = some task → task.ends = true ∨ s.native.stopped = true)
    (hnetwork : t = .network → s.native.stopped = false) (ht : t.reports = false) :
    s'.Settled ∧ ∀ u ∈ ts, u.reports = false := by
  -- a running network thread finds neither a channel nor a task that it could report on
  have htasks : t = .network → s.native.channel = false ∧
      ∀ task ∈ s.native.tasks, task.ends = true := by
    intro heq
    refine h.resolve_left ?_
    rw [hnetwork heq]
    nofun
  induction hm with
  | engine =>
    refine ⟨h, ?_⟩
    intro u hu
    obtain ⟨v, -, rfl⟩ := List.mem_map.mp hu
    rfl
  | stops =>
    refine ⟨h.imp_left (fun hs => ?_), ?_⟩
    · exact Bool.or_eq_true_iff.mpr (.inl hs)
    · intro u hu
      obtain ⟨v, -, rfl⟩ := List.mem_map.mp hu
      rfl
  | connects =>
    refine ⟨?_, forall_single rfl⟩
    exact settled_post (s := s.reach) (hpost .connect rfl) h
  | calls htask =>
    refine ⟨?_, forall_single rfl⟩
    exact settled_post (s := s.reach) (hpost _ htask) h
  | @asks who again =>
    refine ⟨?_, forall_single rfl⟩
    exact settled_post (s := { s.reach with native.destroyed := false }) (.inl rfl) h
  | closes | closesRefused =>
    refine ⟨?_, forall_single rfl⟩
    have hpost : (s.post (.close 1001 "")).Settled := settled_post (.inl rfl) h
    exact hpost
  | @resets who again hs => exact ⟨.inl hs, by cases again <;> exact forall_single rfl⟩
  | @waits who again => exact ⟨h, by cases again <;> exact forall_single rfl⟩
  | @deletes who => exact ⟨h, forall_releases rfl rfl⟩
  | fails | takes =>
    refine ⟨h, (forall_spawned (P := fun v => v.reports = false) rfl (forall_single ?_)).1⟩
    exact ht
  | lets =>
    refine ⟨?_, (forall_spawned (P := fun v => v.reports = false) rfl (forall_single ?_)).2⟩
    · unfold Shared.Settled
      rw [releaseArc_native]
      exact h
    · exact ht
  | gives =>
    refine ⟨?_, fun u hu => by rw [mem_releaseArc hu]; rfl⟩
    unfold Shared.Settled
    rw [releaseArc_native]
    exact h
  | opens | leaks =>
    refine ⟨h, ?_⟩
    intro u hu
    simp only [List.mem_cons, List.not_mem_nil, or_false] at hu
    rcases hu with rfl | rfl <;> rfl
  | runsConnect hq =>
    have hends := (htasks rfl).2 .connect (hq ▸ List.mem_cons_self)
    cases hends
  | runsDestroy hq =>
    refine ⟨.inr ⟨rfl, ?_⟩, forall_single rfl⟩
    intro queued hmem
    exact (htasks rfl).2 queued (hq ▸ List.mem_cons_of_mem _ hmem)
  | runs hq => exact ⟨settled_ran hq h, forall_single rfl⟩
  | faults hq hfault =>
    have hends := (htasks rfl).2 _ (hq ▸ List.mem_cons_self)
    cases hfault <;> cases hends
  | event hc =>
    rw [(htasks rfl).1] at hc
    cases hc
  | returnsNetwork => cases ht
  | unstarted | sendFails => exact ⟨h, forall_single rfl⟩
  | ignores | enters | answers | delivers | finishes => exact ⟨h, forall_single ht⟩
  | _ => exact ⟨h, forall_single rfl⟩

/-- While the destruction waits, its task stays queued or is run. -/
theorem Move.closing_tasks (hm : Move s t s' ts) (ho : t.owner = 0)
    (hd : s.native.destroyed = false) (h : Closing s.native.tasks) :
    (s'.native.destroyed = false ∧ Closing s'.native.tasks) ∨
      t = .network ∧ ts = [.network] ∧ s'.Settled := by
  obtain ⟨l, r, heq, hnone, hends⟩ := h
  -- the network thread has not come to it yet
  have hrest : ∀ {task : NetTask} {tasks : List NetTask}, s.native.tasks = task :: tasks →
      task ≠ .destroy → Closing tasks := by
    intro task tasks hq hne
    rw [heq] at hq
    cases l with
    | nil =>
      obtain ⟨rfl, -⟩ := List.cons.inj hq
      exact absurd rfl hne
    | cons first l =>
      obtain ⟨-, rfl⟩ := List.cons.inj hq
      exact ⟨l, r, rfl, fun hmem => hnone (List.mem_cons_of_mem first hmem), hends⟩
  have hsame : Closing s.native.tasks := ⟨l, r, heq, hnone, hends⟩
  have hclose : Closing (s.native.tasks ++ s.posts (.close 1001 "")) := by
    unfold Shared.posts
    split
    · rw [List.append_nil]
      exact hsame
    · refine ⟨l, r ++ [.close 1001 ""], by rw [heq, List.append_assoc]; rfl, hnone, ?_⟩
      intro task hmem
      rcases List.mem_append.mp hmem with hmem | hmem
      · exact hends task hmem
      · rw [List.mem_singleton.mp hmem]
        rfl
  induction hm with
  | runsConnect hq => exact .inl ⟨hd, hrest hq nofun⟩
  | @runs task _ hq hkeeps =>
    refine .inl ⟨hd, hrest hq ?_⟩
    rintro rfl
    cases hkeeps
  | faults hq hfault =>
    refine .inl ⟨hd, hrest hq ?_⟩
    rintro rfl
    cases hfault
  | runsDestroy hq =>
    right
    refine ⟨rfl, rfl, .inr ⟨rfl, ?_⟩⟩
    rw [heq] at hq
    cases l with
    | nil =>
      obtain ⟨-, rfl⟩ := List.cons.inj hq
      exact hends
    | cons first l =>
      obtain ⟨rfl, -⟩ := List.cons.inj hq
      exact absurd List.mem_cons_self hnone
  | closes => exact .inl ⟨hd, hclose⟩
  | lets | gives =>
    rw [releaseArc_native]
    exact .inl ⟨hd, hsame⟩
  | connects | calls | asks | resets | closesRefused => cases ho
  | _ => exact .inl ⟨hd, hsame⟩

/-- The first wait of a destruction begins behind its task. -/
theorem Move.asked (hm : Move s t s' ts) : ∀ u ∈ ts, u.waits = true →
    t.keeps ∧ s'.native.destroyed = false ∧ s'.native.tasks = s.native.tasks ++ [.destroy] := by
  induction hm with
  | @asks who again hs =>
    refine forall_single (fun hc => ?_)
    cases again
    · refine ⟨⟨rfl, rfl⟩, rfl, ?_⟩
      change s.native.tasks ++ s.posts .destroy = _
      rw [posts_of_running hs]
    · cases hc
  | engine | stops =>
    intro u hu
    obtain ⟨v, -, rfl⟩ := List.mem_map.mp hu
    nofun
  | fails | takes => exact (forall_spawned nofun (forall_single nofun)).1
  | lets => exact (forall_spawned nofun (forall_single nofun)).2
  | gives => exact fun u hu => by rw [mem_releaseArc hu]; nofun
  | deletes => exact forall_releases nofun nofun
  | @resets _ again | @waits _ again => cases again <;> exact forall_single nofun
  | opens | leaks =>
    intro u hu
    simp only [List.mem_cons, List.not_mem_nil, or_false] at hu
    rcases hu with rfl | rfl <;> nofun
  | _ => exact forall_single nofun

/-- What is queued was queued before, or is posted in this step. -/
theorem Move.queues (hm : Move s t s' ts) {task : NetTask} (h : task ∈ s'.native.tasks) :
    task ∈ s.native.tasks ∨ t.task = some task := by
  have hpost : ∀ {e : Shared} {new : NetTask}, e.native.tasks = s.native.tasks → t.task = some new →
      task ∈ (e.post new).native.tasks → task ∈ s.native.tasks ∨ t.task = some task := by
    intro e new he hnew hmem
    rcases List.mem_append.mp hmem with hmem | hmem
    · rw [he] at hmem
      exact .inl hmem
    · unfold Shared.posts at hmem
      split at hmem
      · cases hmem
      · rw [List.mem_singleton.mp hmem]
        exact .inr hnew
  induction hm with
  | connects => exact hpost (e := s.reach) rfl rfl h
  | calls htask => exact hpost (e := s.reach) rfl htask h
  | asks => exact hpost (e := { s.reach with native.destroyed := false }) rfl rfl h
  | closes | closesRefused => exact hpost (e := s) rfl rfl h
  | runsConnect hq | runsDestroy hq | runs hq | faults hq =>
    exact .inl (hq ▸ List.mem_cons_of_mem _ h)
  | lets | gives =>
    rw [releaseArc_native] at h
    exact .inl h
  | _ => exact .inl h

/-- It goes on when the task was run, or when there is nobody to run it. -/
theorem Move.waited (hm : Move s t s' ts) : ∀ u ∈ ts, u.waited = true →
    t.waited = true ∨ t.waits = true ∧ s.native.destroyed = true ∨
      s.native.stopped = true ∧ t.task = some .destroy := by
  induction hm with
  | @asks who again hs =>
    refine forall_single (fun hc => ?_)
    cases again
    · cases hc
    · exact .inl rfl
  | resets hs => exact fun _ _ _ => .inr (.inr ⟨hs, rfl⟩)
  | @waits who again hd =>
    cases again
    · exact forall_single (fun _ => .inr (.inl ⟨rfl, hd⟩))
    · exact forall_single (fun _ => .inl rfl)
  | engine | stops =>
    intro u hu
    obtain ⟨v, -, rfl⟩ := List.mem_map.mp hu
    nofun
  | fails | takes => exact (forall_spawned nofun (forall_single nofun)).1
  | lets => exact (forall_spawned nofun (forall_single nofun)).2
  | gives => exact fun u hu => by rw [mem_releaseArc hu]; nofun
  | deletes => exact forall_releases nofun nofun
  | opens | leaks =>
    intro u hu
    simp only [List.mem_cons, List.not_mem_nil, or_false] at hu
    rcases hu with rfl | rfl <;> nofun
  | _ => exact forall_single nofun

/-- A stop that succeeds is the one step that stops. -/
theorem stops_of_stopped (hn : step s t ch = some (s', ts)) (h : s'.native.stopped = true)
    (hbefore : s.native.stopped = false) :
    ∃ r code, t = .engine (.nativeStop r) ∧ ch = .engine (.result code) ∧ check code = .ok () := by
  rcases (step_move hn).stopped h with hold | ⟨r, rfl⟩
  · rw [hbefore] at hold
    cases hold
  · cases ch with
    | engine ch =>
      cases ch with
      | result code =>
        refine ⟨r, code, rfl, rfl, ?_⟩
        obtain ⟨p, -, hp⟩ := Option.map_eq_some_iff.mp (show (Engine.step s.engine (.nativeStop r)
          (.result code)).map _ = some (s', ts) from hn)
        cases hp
        change (s.native.stopped || (check code == .ok ())) = true at h
        rw [hbefore, Bool.false_or] at h
        exact eq_of_beq h
      | _ => cases hn
    | _ => cases hn

theorem Move.attached (hm : Move s t s' ts) (h : s'.native.callbacks = true) :
    s.native.callbacks = true ∨ t = .opening .setCallbacks := by
  induction hm with
  | attaches => exact .inr rfl
  | lets | gives =>
    rw [releaseArc_native] at h
    exact .inl h
  | _ => exact .inl h

/-! ## The invariant -/

/-- What the destruction waits for. -/
structure QuietInv (c : Config Shared Thread) : Prop where
  /-- At most one thread is the network thread. -/
  runs : total Thread.runs c.threads ≤ 1
  /-- A network thread that has stopped reports nothing. -/
  stopped : c.shared.native.stopped = true → ∀ t ∈ c.threads, t.reports = false
  /-- Before the destruction no such task was posted. -/
  keeps : ∀ t ∈ c.threads, t.keeps → .destroy ∉ c.shared.native.tasks
  /-- Who waits for it waits for a quiet socket or a task that is still there. -/
  waits : ∀ t ∈ c.threads, t.waits = true →
    Quiet c ∨ c.shared.native.destroyed = false ∧ Closing c.shared.native.tasks
  /-- Who has waited has a quiet socket. -/
  waited : ∀ t ∈ c.threads, t.waited = true → Quiet c
  /-- A socket that is gone is quiet. -/
  gone : c.shared.native.socket = .gone → Quiet c
  /-- Callbacks belong to a socket. -/
  born : c.shared.native.callbacks = true → c.shared.native.socket ≠ .unborn

variable {c c' : Config Shared Thread}

theorem quietInv_init : QuietInv start.config where
  runs := by decide
  stopped := Bool.noConfusion
  keeps := by
    intro t _ _ hdestroy
    cases hdestroy
  waits := by
    intro t ht
    simp only [start, Listed.config, Multiset.mem_coe, List.mem_cons, List.not_mem_nil,
      or_false] at ht
    rcases ht with rfl | rfl | rfl | rfl <;> exact Bool.noConfusion
  waited := by
    intro t ht
    simp only [start, Listed.config, Multiset.mem_coe, List.mem_cons, List.not_mem_nil,
      or_false] at ht
    rcases ht with rfl | rfl | rfl | rfl <;> exact Bool.noConfusion
  gone := fun hgone => by cases hgone
  born := Bool.noConfusion

/-- Beside the owner of a socket nobody else keeps it. -/
theorem ends_beside {rest : Multiset Thread} (hown : OwnershipInv ⟨s, t ::ₘ rest⟩) (hu : u ∈ rest)
    (ho : u.owner = 1) : ∀ task, t.task = some task → task.ends = true := by
  intro task htask
  by_contra hends
  have hkeeps := (keeps_of_task htask (Bool.eq_false_iff.mpr hends)).1.1
  have htwo := add_le_total (w := Thread.owner) (t := t) hu
  have hone : total Thread.owner (t ::ₘ rest) ≤ 1 := hown.owner
  omega

/-- Who destroys a socket does not connect or send. -/
theorem ends_of_waits (h : t.waits = true ∨ t.waited = true) :
    ∀ task, t.task = some task → task.ends = true := by
  intro task htask
  by_contra hends
  have hkeeps := (keeps_of_task htask (Bool.eq_false_iff.mpr hends)).1.2
  rw [destroying_of_waits h] at hkeeps
  cases hkeeps

section

variable {rest : Multiset Thread}

/-- Nothing is reported any more after a step of somebody who does not connect or send. -/
theorem quiet_step (hq : Quiet ⟨s, t ::ₘ rest⟩) (hm : Move s t s' ts)
    (hpost : ∀ task, t.task = some task → task.ends = true ∨ s.native.stopped = true)
    (hnetwork : t = .network → s.native.stopped = false) : Quiet ⟨s', ts + rest⟩ := by
  have hself := hq.threads t (Multiset.mem_cons_self t rest)
  obtain ⟨hsettled, hspawned⟩ := hm.settled hq.settled hpost hnetwork hself
  exact ⟨forall_step hq.threads (fun _ => hspawned) (fun _ _ hold => hold), hsettled⟩

theorem quiet_of_stopped (hi : QuietInv ⟨s, t ::ₘ rest⟩) (hm : Move s t s' ts)
    (hstopped : s.native.stopped = true) (hnetwork : t = .network → s.native.stopped = false) :
    Quiet ⟨s', ts + rest⟩ :=
  quiet_step ⟨hi.stopped hstopped, .inl hstopped⟩ hm (fun _ _ => .inr hstopped) hnetwork

theorem QuietInv.stopped_step (hi : QuietInv ⟨s, t ::ₘ rest⟩)
    (hallowed : NetworkJoined ⟨s, t ::ₘ rest⟩ t ch) (hn : step s t ch = some (s', ts))
    (hstopped : s'.native.stopped = true) : ∀ u ∈ ts + rest, u.reports = false := by
  obtain ⟨hnetwork, hjoined⟩ := hallowed
  have hm := step_move hn
  by_cases hbefore : s.native.stopped = true
  · exact (quiet_of_stopped hi hm hbefore hnetwork).threads
  · -- the network thread is joined, so it is in no callback
    obtain ⟨r, code, rfl, hch, hcode⟩ :=
      stops_of_stopped hn hstopped (Bool.eq_false_iff.mpr hbefore)
    have hidle : Thread.network ∈ rest :=
      (Multiset.mem_cons.mp (hjoined r code rfl hch hcode)).resolve_left nofun
    obtain ⟨rest, rfl⟩ := Multiset.exists_cons_of_mem hidle
    have hruns : total Thread.runs (Thread.network ::ₘ rest) ≤ 1 := by
      have hall := hi.runs
      rw [total_cons] at hall
      omega
    intro u hu
    rcases Multiset.mem_add.mp hu with hin | hu
    · have hspawned : u ∈ ts := Multiset.mem_coe.mp hin
      cases hm with
      | engine | stops =>
        obtain ⟨v, -, rfl⟩ := List.mem_map.mp hspawned
        rfl
    · rcases Multiset.mem_cons.mp hu with rfl | hu
      · rfl
      · exact quiet_of_network hruns rfl u hu

theorem QuietInv.keeps_step (hi : QuietInv ⟨s, t ::ₘ rest⟩) (hm : Move s t s' ts)
    (hown : OwnershipInv ⟨s, t ::ₘ rest⟩) (hu : u ∈ ts + rest) (hk : u.keeps) :
    .destroy ∉ s'.native.tasks := by
  intro hqueued
  obtain ⟨⟨v, hv, hvk⟩, htask⟩ := kept_step hm hown.owner hu hk
  rcases hm.queues hqueued with hold | hnew
  · exact hi.keeps v hv hvk hold
  · exact htask hnew

theorem QuietInv.waits_step (hi : QuietInv ⟨s, t ::ₘ rest⟩) (hm : Move s t s' ts)
    (hown : OwnershipInv ⟨s, t ::ₘ rest⟩) (hnetwork : t = .network → s.native.stopped = false)
    (hu : u ∈ ts + rest) (hw : u.waits = true) :
    Quiet ⟨s', ts + rest⟩ ∨ s'.native.destroyed = false ∧ Closing s'.native.tasks := by
  rcases Multiset.mem_add.mp hu with hu | hu
  · obtain ⟨hkeeps, hd, htasks⟩ := hm.asked u (Multiset.mem_coe.mp hu) hw
    have hnone := hi.keeps t (Multiset.mem_cons_self t rest) hkeeps
    exact .inr ⟨hd, s.native.tasks, [], htasks, hnone, nofun⟩
  · have ho := owner_of_waits (.inl hw)
    rcases hi.waits u (Multiset.mem_cons_of_mem hu) hw with hq | ⟨hd, hclosing⟩
    · have hends := ends_beside hown hu ho
      exact .inl (quiet_step hq hm (fun task htask => .inl (hends task htask)) hnetwork)
    · have htwo := add_le_total (w := Thread.owner) (t := t) hu
      have hone : total Thread.owner (t ::ₘ rest) ≤ 1 := hown.owner
      rcases hm.closing_tasks (by omega) hd hclosing with hkept | ⟨rfl, rfl, hsettled⟩
      · exact .inr hkept
      · refine .inl ⟨?_, hsettled⟩
        intro v hv
        rcases Multiset.mem_add.mp hv with hv | hv
        · rw [List.mem_singleton.mp (Multiset.mem_coe.mp hv)]
          rfl
        · exact quiet_of_network hi.runs rfl v hv

/-- Who has waited for the destruction takes a step. -/
theorem QuietInv.quiet_of_waited (hi : QuietInv ⟨s, t ::ₘ rest⟩) (hm : Move s t s' ts)
    (hnetwork : t = .network → s.native.stopped = false) (hw : t.waited = true) :
    Quiet ⟨s', ts + rest⟩ := by
  have hends := ends_of_waits (.inr hw)
  exact quiet_step (hi.waited t (Multiset.mem_cons_self t rest) hw) hm
    (fun task htask => .inl (hends task htask)) hnetwork

theorem QuietInv.waited_step (hi : QuietInv ⟨s, t ::ₘ rest⟩) (hm : Move s t s' ts)
    (hown : OwnershipInv ⟨s, t ::ₘ rest⟩) (hnetwork : t = .network → s.native.stopped = false)
    (hu : u ∈ ts + rest) (hw : u.waited = true) : Quiet ⟨s', ts + rest⟩ := by
  rcases Multiset.mem_add.mp hu with hu | hu
  · rcases hm.waited u (Multiset.mem_coe.mp hu) hw with hold | ⟨hwaits, hd⟩ | ⟨hstopped, -⟩
    · exact hi.quiet_of_waited hm hnetwork hold
    · -- the task that it waited for has run
      rcases hi.waits t (Multiset.mem_cons_self t rest) hwaits with hq | ⟨hnot, -⟩
      · have hends := ends_of_waits (.inl hwaits)
        exact quiet_step hq hm (fun task htask => .inl (hends task htask)) hnetwork
      · rw [hd] at hnot
        cases hnot
    · exact quiet_of_stopped hi hm hstopped hnetwork
  · have hends := ends_beside hown hu (owner_of_waits (.inr hw))
    exact quiet_step (hi.waited u (Multiset.mem_cons_of_mem hu) hw) hm
      (fun task htask => .inl (hends task htask)) hnetwork

theorem QuietInv.gone_step (hi : QuietInv ⟨s, t ::ₘ rest⟩) (hm : Move s t s' ts)
    (hown : OwnershipInv ⟨s, t ::ₘ rest⟩) (hnetwork : t = .network → s.native.stopped = false)
    (hgone : s'.native.socket = .gone) : Quiet ⟨s', ts + rest⟩ := by
  rcases hm.socketGone hgone with hold | ⟨who, rfl⟩
  · refine quiet_step (hi.gone hold) hm ?_ hnetwork
    intro task htask
    left
    by_contra hends
    obtain ⟨⟨ho, -⟩, hstage⟩ := keeps_of_task htask (Bool.eq_false_iff.mpr hends)
    have hholds := (hown.stands t (Multiset.mem_cons_self t rest)).stage ho
    rw [hstage] at hholds
    have hlive : s.native.socket = .live := hholds.1
    rw [hlive] at hold
    cases hold
  · exact hi.quiet_of_waited hm hnetwork rfl

theorem QuietInv.born_step (hi : QuietInv ⟨s, t ::ₘ rest⟩) (hm : Move s t s' ts)
    (hown : OwnershipInv ⟨s, t ::ₘ rest⟩) (hcallbacks : s'.native.callbacks = true) :
    s'.native.socket ≠ .unborn := by
  refine hm.socketBorn ?_
  rcases hm.attached hcallbacks with hold | rfl
  · exact hi.born hold
  · rw [((hown.stands _ (Multiset.mem_cons_self _ rest)).stage rfl).1]
    nofun

end

theorem quietInv_step (h : Reachable step NetworkJoined start.config c) (hi : QuietInv c)
    (hs : Step step NetworkJoined c c') : QuietInv c' := by
  have hown := ownershipInv_reachable h
  obtain ⟨hallowed, hn⟩ := hs
  have hm := step_move hn
  exact {
    runs := passed_step hi.runs hm.runs_le
    stopped := hi.stopped_step hallowed hn
    keeps := fun _ => hi.keeps_step hm hown
    waits := fun _ => hi.waits_step hm hown hallowed.1
    waited := fun _ => hi.waited_step hm hown hallowed.1
    gone := hi.gone_step hm hown hallowed.1
    born := hi.born_step hm hown }

theorem quietInv_reachable (h : Reachable step NetworkJoined start.config c) : QuietInv c :=
  h.invariant quietInv_init (fun hr hi hs => quietInv_step hr hi hs)

/-- **A callback that enters the program finds its socket alive.** -/
theorem socket_of_reports (h : Reachable step NetworkJoined start.config c) (ht : t ∈ c.threads)
    (hreports : t.reports = true) (hcalled : t.called = true) : c.shared.native.socket = .live := by
  have hi := quietInv_reachable h
  have hborn := hi.born (((ownershipInv_reachable h).stands t ht).called hcalled)
  cases hsocket : c.shared.native.socket with
  | unborn => exact absurd hsocket hborn
  | live => rfl
  | gone =>
    have hquiet := (hi.gone hsocket).threads t ht
    rw [hreports] at hquiet
    cases hquiet

end TokioCronet.WebSocket
