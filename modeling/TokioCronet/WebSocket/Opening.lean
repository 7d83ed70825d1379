import TokioCronet.WebSocket.Cancellation

/-!
# The end of an opening

`open_websocket` waits for the open sender, which `on_open` and `on_failure` take. A
connection can also end with `on_closed`, which finishes the context and leaves the sender
where it is; the context lives on in the `Arc` that its caller holds while it waits.

In a run in which `on_closed` only comes once the sender has been taken, a connection that
is gone for good leaves nobody waiting.
-/

namespace TokioCronet.WebSocket

open Pool
open Request (Lifetime)

variable {s s' : Shared} {t u : Thread} {ts : List Thread} {c c' : Config Shared Thread}

/-- `open_websocket` can go on from its await point. -/
def Resolves (s : Shared) : Prop := ∃ p, step s (.opening .await) .go = some p

/-- **A connection that has ended leaves nobody waiting for it to open.** The channel is
gone for good when its `Connect` was run, there is none, and no callback is running. -/
structure OpenResolves (c : Config Shared Thread) : Prop where
  /-- A terminal callback uses up the sender. -/
  sender : (∃ result, Event.finished result ∈ c.shared.trace) → c.shared.context.opener = false
  /-- The call that waits gets its answer from it. -/
  finished : .opening .await ∈ c.threads →
    (∃ result, Event.finished result ∈ c.shared.trace) → Resolves c.shared
  /-- It gets one when the channel is gone, too. -/
  gone : .opening .await ∈ c.threads → Event.ran .connect ∈ c.shared.trace →
    c.shared.native.channel = false → .network ∈ c.threads → Resolves c.shared

/-- `on_closed` finds the open sender taken. -/
def AnswersFirst : Policy Shared Thread Choice := fun c t _ =>
  ∀ caller, t = .callback (.entered .closed) caller → c.shared.context.opener = false

/-! ## The sender -/

theorem Move.opener (hm : Move s t s' ts) (h : s.context.opener = false) :
    s'.context.opener = false := by
  have hrelease : s.releaseArc.1.context.opener = s.context.opener := by
    unfold Shared.releaseArc
    split
    · split <;> rfl
    · rfl
  induction hm with
  | answers => rfl
  | lets | gives =>
    rw [hrelease]
    exact h
  | _ => exact h

/-- The sender is taken to send. -/
theorem Move.opened (hm : Move s t s' ts)
    (h : s.context.opener = false → s.context.opened.isSome = true)
    (hopener : s'.context.opener = false) : s'.context.opened.isSome = true := by
  have hrelease : s.releaseArc.1.context.opener = s.context.opener ∧
      s.releaseArc.1.context.opened = s.context.opened := by
    unfold Shared.releaseArc
    split
    · split <;> exact ⟨rfl, rfl⟩
    · exact ⟨rfl, rfl⟩
  induction hm with
  | @answers c result =>
    change Option.isSome (if s.context.opener then some result else s.context.opened) = true
    by_cases ho : s.context.opener = true
    · rw [if_pos ho]
      rfl
    · rw [if_neg ho]
      exact h (Bool.eq_false_iff.mpr ho)
  | lets | gives =>
    rw [hrelease.1] at hopener
    rw [hrelease.2]
    exact h hopener
  | _ => exact h hopener

theorem resolves_of_opened (h : s.context.opened.isSome = true) : Resolves s := by
  obtain ⟨result, hr⟩ := Option.isSome_iff_exists.mp h
  unfold Resolves step openStep
  rw [hr]
  cases result with
  | ok protocol => exact ⟨_, rfl⟩
  | error e => exact ⟨_, rfl⟩

/-! ## Terminal callbacks -/

/-- The network thread, or a callback that it runs. -/
def Caller.runs : Caller → Nat
  | .network _ => 1
  | _ => 0

/-- Whether the thread stands for the network thread. -/
def Thread.runs : Thread → Nat
  | .network => 1
  | .callback _ caller => caller.runs
  | _ => 0

/-- A terminal callback has had the sender. -/
def Thread.answered : Thread → Bool
  | .callback (.sends (.failure _ _)) _ | .callback (.terminal _) _
  | .callback .operation _ => true
  | .callback .release (.network true) | .callback .returns (.network true) => true
  | _ => false

/-- The channel is reset after a terminal callback. -/
def Thread.fits : Thread → Bool
  | .callback (.entered c) (.network true) | .callback (.answers c) (.network true)
  | .callback (.sends c) (.network true) => c.resets
  | _ => true

/-- `on_failure` is on its way to the sender. -/
def Thread.failing : Thread → Bool
  | .callback (.entered (.failure _ _)) (.network _)
  | .callback (.answers (.failure _ _)) (.network _) => true
  | _ => false

/-- A socket whose destruction has not begun. -/
def Thread.keeps (t : Thread) : Prop := t.owner = 1 ∧ t.destroying = false

theorem map_engine_runs {us : List (Engine.Thread User)} :
    ((us.map Thread.engine).map Thread.runs).sum = 0 := by
  induction us with
  | nil => rfl
  | cons v us ih =>
    rw [List.map_cons, List.map_cons, List.sum_cons, ih]
    rfl

theorem operationDrop_runs : (s.operationDrop.map Thread.runs).sum = 0 := by
  unfold Shared.operationDrop
  split <;> rfl

theorem releaseArc_runs : (s.releaseArc.2.map Thread.runs).sum = 0 := by
  unfold Shared.releaseArc
  split
  · split
    · exact operationDrop_runs
    · rfl
  · rfl

/-- There is one network thread. -/
theorem Move.runs_le (hm : Move s t s' ts) : (ts.map Thread.runs).sum ≤ t.runs := by
  induction hm with
  | engine | stops =>
    rw [map_engine_runs]
    exact Nat.zero_le _
  | fails =>
    rw [List.map_append, List.sum_append, operationDrop_runs]
    exact Nat.le_refl 0
  | takes =>
    rw [List.map_append, List.sum_append, operationDrop_runs, Nat.zero_add]
    exact Nat.le_refl _
  | lets =>
    rw [List.map_append, List.sum_append, releaseArc_runs, Nat.zero_add]
    exact Nat.le_refl _
  | gives =>
    rw [releaseArc_runs]
    exact Nat.zero_le _
  | @deletes who => cases who <;> exact Nat.le_refl 0
  | @resets who again | @waits who again => cases again <;> exact Nat.le_refl 0
  | _ => exact Nat.le_refl _

/-! ## What one step leads to -/

/-- What holds of a thread that has nothing to do with callbacks or with the socket. -/
theorem forall_spawned {P : Thread → Prop} (hdrop : P (.engine .dropOperation))
    (hts : ∀ u ∈ ts, P u) :
    (∀ u ∈ s.operationDrop ++ ts, P u) ∧ ∀ u ∈ s.releaseArc.2 ++ ts, P u := by
  refine ⟨?_, ?_⟩
  · intro u hu
    rcases List.mem_append.mp hu with hu | hu
    · rw [mem_operationDrop hu]
      exact hdrop
    · exact hts u hu
  · intro u hu
    rcases List.mem_append.mp hu with hu | hu
    · rw [mem_releaseArc hu]
      exact hdrop
    · exact hts u hu

theorem forall_single {P : Thread → Prop} (h : P u) : ∀ v ∈ [u], P v :=
  List.forall_mem_singleton.mpr h

theorem forall_releases {P : Thread → Prop} {who : Destroyer} (h1 : P .releaseArc)
    (h2 : P (.engine .releaseArc)) : ∀ u ∈ who.releases, P u := by
  intro u hu
  cases who <;> simp only [Destroyer.releases, List.mem_cons, List.not_mem_nil, or_false] at hu <;>
    rcases hu with rfl | rfl | rfl <;> assumption

/-- `OnDropChannel` and `OnFailChannel` reset the channel, and so does nothing else. -/
theorem Move.fits (hm : Move s t s' ts) (ht : t.fits = true) : ∀ u ∈ ts, u.fits = true := by
  induction hm with
  | engine | stops =>
    intro u hu
    obtain ⟨v, -, rfl⟩ := List.mem_map.mp hu
    rfl
  | fails | takes =>
    exact (forall_spawned (P := fun u => u.fits = true) rfl (forall_single rfl)).1
  | lets => exact (forall_spawned (P := fun u => u.fits = true) rfl (forall_single rfl)).2
  | gives =>
    intro u hu
    rw [mem_releaseArc hu]
    rfl
  | deletes => exact forall_releases rfl rfl
  | opens => exact List.forall_mem_cons.mpr ⟨rfl, forall_single rfl⟩
  | leaks => exact List.forall_mem_cons.mpr ⟨rfl, forall_single rfl⟩
  | @resets who again | @waits who again => cases again <;> exact forall_single rfl
  | unstarted | sendFails | faults =>
    refine forall_single ?_
    unfold Shared.notify
    split <;> rfl
  | @event c =>
    refine forall_single ?_
    unfold Shared.notify
    split
    · cases c <;> rfl
    · rfl
  | @enters c caller =>
    refine forall_single ?_
    cases caller with
    | network reset =>
      cases reset
      · cases c <;> rfl
      · cases c <;> first | rfl | cases ht
    | connect | socket => cases c <;> rfl
  | @answers c _ _ caller _ hp =>
    refine forall_single ?_
    subst hp
    cases caller with
    | network reset =>
      cases reset
      · split <;> rfl
      · split
        · exact ht
        · rfl
    | connect | socket => split <;> rfl
  | @delivers c _ _ caller _ hp =>
    refine forall_single ?_
    subst hp
    split <;> rfl
  | _ => exact forall_single rfl

theorem notify_answered {c : Callback} {caller : Caller} (h : s.native.callbacks = true) :
    (Thread.callback (s.notify c) caller).answered = false := by
  unfold Shared.notify
  rw [if_pos h]
  rfl

/-- **A terminal callback takes the sender first**, if `on_closed` finds it taken. -/
theorem Move.answered_of (hm : Move s t s' ts) (ht : t.fits = true)
    (hpast : t.answered = true → s.context.opener = false)
    (hpolicy : ∀ caller, t = .callback (.entered .closed) caller → s.context.opener = false)
    (hcallbacks : s.native.channel = true → s.native.callbacks = true) :
    ∀ u ∈ ts, u.answered = true → s'.context.opener = false := by
  have hm' := hm
  induction hm with
  | engine | stops =>
    intro u hu hc
    obtain ⟨v, -, rfl⟩ := List.mem_map.mp hu
    cases hc
  | fails => exact (forall_spawned nofun (forall_single nofun)).1
  | takes =>
    refine (forall_spawned nofun (forall_single ?_)).1
    intro _
    exact hpast rfl
  | @lets caller =>
    refine (forall_spawned nofun (forall_single ?_)).2
    intro hc
    have hbefore : s.context.opener = false := by
      cases caller with
      | network reset =>
        cases reset
        · cases hc
        · exact hpast rfl
      | connect | socket => cases hc
    exact Move.opener hm' hbefore
  | gives =>
    intro u hu hc
    rw [mem_releaseArc hu] at hc
    cases hc
  | deletes => exact forall_releases nofun nofun
  | opens => exact List.forall_mem_cons.mpr ⟨nofun, forall_single nofun⟩
  | leaks => exact List.forall_mem_cons.mpr ⟨nofun, forall_single nofun⟩
  | @resets who again | @waits who again => cases again <;> exact forall_single nofun
  | unstarted | sendFails | faults =>
    refine forall_single ?_
    unfold Shared.notify
    split <;> nofun
  | event hs =>
    refine forall_single ?_
    rw [notify_answered (hcallbacks hs)]
    nofun
  | @enters c caller hc =>
    refine forall_single ?_
    cases c with
    | closed => exact fun _ => hpolicy caller rfl
    | closing => exact absurd rfl hc
    | _ => nofun
  | answers => exact forall_single (fun _ => rfl)
  | @delivers c item p caller hitem hp =>
    refine forall_single ?_
    subst hp
    cases c with
    | failure => exact fun _ => hpast rfl
    | message =>
      intro hc
      cases caller with
      | network reset =>
        cases reset
        · cases hc
        · cases ht
      | connect | socket => cases hc
    | _ => cases hitem
  | finishes => exact forall_single (fun _ => hpast rfl)
  | @ignores caller =>
    refine forall_single ?_
    intro hc
    cases caller with
    | network reset =>
      cases reset
      · cases hc
      · cases ht
    | connect | socket => cases hc
  | _ => exact forall_single nofun

/-! ## The invariant -/

/-- `on_failure` has not yet got to the sender. -/
def Failing (c : Config Shared Thread) : Prop := ∃ t ∈ c.threads, t.failing = true

/-- What the callbacks of a socket do to the sender. -/
structure OpeningInv (c : Config Shared Thread) : Prop where
  /-- At most one thread is the network thread. -/
  runs : total Thread.runs c.threads ≤ 1
  /-- The callbacks come as they may. -/
  fits : ∀ t ∈ c.threads, t.fits = true
  /-- Who has answered has used up the sender. -/
  answered : ∀ t ∈ c.threads, t.answered = true → c.shared.context.opener = false
  /-- A sender that is used up has answered. -/
  opened : c.shared.context.opener = false → c.shared.context.opened.isSome = true
  /-- A terminal callback has used it up. -/
  finished : Finished c.shared → c.shared.context.opener = false
  /-- A channel comes from a `Connect`. -/
  channel : c.shared.native.channel = true → Connected c.shared
  /-- The destruction begins with the end of its owner. -/
  destroys : ∀ t ∈ c.threads, t.keeps → .destroy ∉ posted c.shared.trace
  /-- A channel that is gone has failed, or answers on its way. -/
  gone : (∃ t ∈ c.threads, t.keeps) → Event.ran .connect ∈ c.shared.trace →
    c.shared.native.channel = false → c.shared.context.opener = false ∨ Failing c

theorem openingInv_init : OpeningInv start.config where
  runs := by decide
  fits := by
    intro t ht
    simp only [start, Listed.config, Multiset.mem_coe, List.mem_cons, List.not_mem_nil,
      or_false] at ht
    rcases ht with rfl | rfl | rfl | rfl <;> rfl
  answered := by
    intro t ht
    simp only [start, Listed.config, Multiset.mem_coe, List.mem_cons, List.not_mem_nil,
      or_false] at ht
    rcases ht with rfl | rfl | rfl | rfl <;> intro hc <;> cases hc
  opened := by
    intro h
    cases h
  finished := by
    rintro ⟨result, h⟩
    cases h
  channel := by
    intro h
    cases h
  destroys := by
    intro t _ _ h
    cases h
  gone := by
    intro _ h
    cases h

/-- A thread that keeps its socket had kept it. -/
theorem Move.kept (hm : Move s t s' ts) (hone : t.owner ≤ 1) (hu : u ∈ ts) (hk : u.keeps) :
    t.keeps := by
  obtain ⟨ho, hd⟩ := hk
  have hle : u.owner ≤ total Thread.owner (ts : Multiset Thread) :=
    le_total (Multiset.mem_coe.mpr hu)
  have hpass := hm.owner
  rw [total_coe] at hle
  refine ⟨by omega, ?_⟩
  by_contra htd
  have hdestroying : t.destroying = true := by simpa using htd
  induction hm with
  | @resets who again | @asks who again | @waits who again =>
    obtain rfl := List.mem_singleton.mp hu
    cases again <;> cases hd
  | @deletes who =>
    have hreleases : ∀ v ∈ who.releases, v.owner = 0 :=
      forall_releases (P := fun v => v.owner = 0) rfl rfl
    have hzero := hreleases u hu
    omega
  | _ => cases hdestroying

/-- The `Destroy` of a socket is posted by its owner, who does not keep it then. -/
theorem Move.destroyTask (hm : Move s t s' ts) (ht : t.task = some .destroy) :
    t.owner = 1 ∧ ∀ u ∈ ts, u.destroying = true := by
  have hpost : ∃ who again, t = .destroy (.post who again) := by
    unfold Thread.task at ht
    split at ht
    · cases ht
    · cases ht
    · rename_i p
      cases p <;> cases ht
    · exact ⟨_, _, rfl⟩
    · cases ht
  obtain ⟨who, again, rfl⟩ := hpost
  refine ⟨rfl, ?_⟩
  cases hm with
  | resets => cases again <;> exact forall_single rfl
  | asks => exact forall_single rfl

/-- Who keeps the socket after a step had kept it before, and the step is no `Destroy`. -/
theorem kept_step {rest : Multiset Thread} (hm : Move s t s' ts)
    (hone : total Thread.owner (t ::ₘ rest) ≤ 1) (hu : u ∈ (ts : Multiset Thread) + rest)
    (hk : u.keeps) : (∃ v ∈ t ::ₘ rest, v.keeps) ∧ t.task ≠ some .destroy := by
  have hmem : t ∈ t ::ₘ rest := Multiset.mem_cons_self t rest
  have htone : t.owner ≤ 1 := le_trans (le_total hmem) hone
  rcases Multiset.mem_add.mp hu with hu | hu
  · refine ⟨⟨t, hmem, hm.kept htone (Multiset.mem_coe.mp hu) hk⟩, ?_⟩
    intro htask
    have hd := (hm.destroyTask htask).2 u (Multiset.mem_coe.mp hu)
    rw [hk.2] at hd
    cases hd
  · refine ⟨⟨u, Multiset.mem_cons_of_mem hu, hk⟩, ?_⟩
    intro htask
    have htwo := add_le_total (w := Thread.owner) (t := t) hu
    have hto := (hm.destroyTask htask).1
    have huo := hk.1
    omega

/-- Where the channel comes from. -/
theorem Move.channelMade (hm : Move s t s' ts) (h : s'.native.channel = true) :
    s.native.channel = true ∨ NetTask.connect ∈ s.native.tasks := by
  induction hm with
  | runsConnect hq => exact .inr (hq ▸ List.mem_cons_self)
  | resets | runsDestroy => cases h
  | returnsNetwork => exact .inl (Bool.and_eq_true_iff.mp h).1
  | lets | gives =>
    rw [releaseArc_native] at h
    exact .inl h
  | _ => exact .inl h

/-- How the channel goes: after a terminal callback, or for the destruction. -/
theorem Move.channelGone (hm : Move s t s' ts) (h : s'.native.channel = false)
    (hbefore : s.native.channel = true) :
    t = .callback .returns (.network true) ∨ NetTask.destroy ∈ s.native.tasks ∨
      t.task = some .destroy := by
  induction hm with
  | runsDestroy hq => exact .inr (.inl (hq ▸ List.mem_cons_self))
  | resets => exact .inr (.inr rfl)
  | @returnsNetwork reset =>
    left
    cases reset
    · change (s.native.channel && true) = false at h
      rw [hbefore] at h
      cases h
    · rfl
  | runsConnect => cases h
  | lets | gives =>
    rw [releaseArc_native, hbefore] at h
    cases h
  | _ =>
    have hkept : s.native.channel = false := h
    rw [hbefore] at hkept
    cases hkept

/-- The network thread takes the `Connect` and makes the channel, or reports a failure. -/
theorem Move.ranConnect (hm : Move s t s' ts) (hcallbacks : NetTask.connect ∈ s.native.tasks →
    s.native.callbacks = true) (h : Event.ran .connect ∈ s'.trace) :
    Event.ran .connect ∈ s.trace ∨ s'.native.channel = true ∨ ∃ u ∈ ts, u.failing = true := by
  rcases hm.records h with hold | hr
  · exact .inl hold
  · obtain rfl : t = .network := by
      unfold Thread.Records at hr
      split at hr <;> simp_all
    cases hm with
    | runsConnect => exact .inr (.inl rfl)
    | runsDestroy => exact .inl ((mem_append_one h).resolve_right nofun)
    | runs _ hkeeps =>
      rcases mem_append_one h with hold | heq
      · exact .inl hold
      · cases heq
        cases hkeeps
    | @faults task _ c hq hfault =>
      rcases mem_append_one ((mem_notified h).resolve_right nofun) with hold | heq
      · exact .inl hold
      · cases heq
        cases hfault
        refine .inr (.inr ⟨_, List.mem_singleton_self _, ?_⟩)
        unfold Shared.notify
        rw [if_pos (hcallbacks (hq ▸ List.mem_cons_self))]
        rfl
    | event => exact .inl ((mem_notified h).resolve_right nofun)

/-- `on_failure` goes on to the sender, and takes it. -/
theorem Move.failing (hm : Move s t s' ts) (ht : t.failing = true) :
    s'.context.opener = false ∨ ∃ u ∈ ts, u.failing = true := by
  induction hm with
  | @enters c caller =>
    right
    refine ⟨_, List.mem_singleton_self _, ?_⟩
    cases c with
    | failure => cases caller <;> first | rfl | cases ht
    | _ => cases ht
  | answers => exact .inl rfl
  | _ => cases ht

theorem openingInv_step (h : Reachable step AnswersFirst start.config c) (hi : OpeningInv c)
    (hs : Step step AnswersFirst c c') : OpeningInv c' := by
  have hown := ownershipInv_reachable h
  have htasks := tasksInv_reachable h
  obtain ⟨hpolicy, hn⟩ := hs
  rename_i s s' t ts rest ch
  have hm : Move s t s' ts := step_move hn
  have hmem : t ∈ t ::ₘ rest := Multiset.mem_cons_self t rest
  have hone : total Thread.owner (t ::ₘ rest) ≤ 1 := hown.owner
  have hqueued : ∀ task ∈ s.native.tasks, task ∈ posted s.trace := by
    intro task hq
    rw [htasks.fifo]
    exact List.mem_append_right _ hq
  have hcallbacks : Connected s → s.native.callbacks = true := fun hc => (htasks.connected hc).1
  have hkept : ∀ u ∈ (ts : Multiset Thread) + rest, u.keeps →
      (∃ v ∈ t ::ₘ rest, v.keeps) ∧ t.task ≠ some .destroy :=
    fun u hu hk => kept_step hm hone hu hk
  refine ⟨passed_step hi.runs hm.runs_le, ?_, ?_, hm.opened hi.opened, ?_, ?_, ?_, ?_⟩
  · exact forall_step hi.fits (fun ht => hm.fits ht) (fun _ _ hold => hold)
  · refine forall_step hi.answered ?_ (fun u _ hold hc => hm.opener (hold hc))
    intro hold
    exact hm.answered_of (hi.fits t hmem) hold hpolicy (fun hc => hcallbacks (hi.channel hc))
  · rintro ⟨result, hfinished⟩
    refine hm.opener ?_
    rcases hm.records hfinished with hold | hr
    · exact hi.finished ⟨result, hold⟩
    · refine hi.answered t hmem ?_
      unfold Thread.Records at hr
      split at hr <;> simp_all [Thread.answered]
  · intro hc
    refine connected_mono hm ?_
    rcases hm.channelMade hc with hold | hq
    · exact hi.channel hold
    · exact hqueued _ hq
  · intro u hu hk hposted
    obtain ⟨⟨v, hv, hvk⟩, htask⟩ := hkept u hu hk
    change NetTask.destroy ∈ posted s'.trace at hposted
    rcases hm.posts with heq | ⟨task, hnew, -, heq⟩
    · rw [heq] at hposted
      exact hi.destroys v hv hvk hposted
    · rw [heq] at hposted
      rcases List.mem_append.mp hposted with hold | hnow
      · exact hi.destroys v hv hvk hold
      · rw [← List.mem_singleton.mp hnow] at hnew
        exact htask hnew
  · rintro ⟨u, hu, hk⟩ hran hgone
    obtain ⟨⟨v, hv, hvk⟩, htask⟩ := hkept u hu hk
    rcases hm.ranConnect (fun hq => hcallbacks (hqueued _ hq)) hran with hold | hmade | hfailing
    · by_cases hc : s.native.channel = true
      · -- the channel goes in this step
        left
        rcases hm.channelGone hgone hc with rfl | hq | hdestroy
        · exact hm.opener (hi.answered _ hmem rfl)
        · exact absurd (hqueued _ hq) (hi.destroys v hv hvk)
        · exact absurd hdestroy htask
      · rcases hi.gone ⟨v, hv, hvk⟩ hold (Bool.eq_false_iff.mpr hc) with hopener | ⟨w, hw, hwf⟩
        · exact .inl (hm.opener hopener)
        · rcases Multiset.mem_cons.mp hw with rfl | hw
          · exact (hm.failing hwf).imp_right (fun ⟨x, hx, hxf⟩ =>
              ⟨x, Multiset.mem_add.mpr (.inl (Multiset.mem_coe.mpr hx)), hxf⟩)
          · exact .inr ⟨w, Multiset.mem_add.mpr (.inr hw), hwf⟩
    · change s'.native.channel = false at hgone
      rw [hgone] at hmade
      cases hmade
    · obtain ⟨x, hx, hxf⟩ := hfailing
      exact .inr ⟨x, Multiset.mem_add.mpr (.inl (Multiset.mem_coe.mpr hx)), hxf⟩

theorem openingInv_reachable (h : Reachable step AnswersFirst start.config c) : OpeningInv c :=
  h.invariant openingInv_init (fun hr hi hs => openingInv_step hr hi hs)

/-- **`open_websocket` does not wait for a connection that has ended**, in every run in
which `on_closed` finds the open sender taken. -/
theorem open_resolves (h : Reachable step AnswersFirst start.config c) : OpenResolves c := by
  have hi := openingInv_reachable h
  refine ⟨hi.finished, ?_, ?_⟩
  · intro _ hfinished
    exact resolves_of_opened (hi.opened (hi.finished hfinished))
  · intro hawait hran hgone hnetwork
    rcases hi.gone ⟨_, hawait, rfl, rfl⟩ hran hgone with hopener | ⟨w, hw, hwf⟩
    · exact resolves_of_opened (hi.opened hopener)
    · -- the callback would run beside the idle network thread
      have hruns : w.runs = 1 := by
        unfold Thread.failing at hwf
        split at hwf <;> first | rfl | cases hwf
      obtain ⟨rest, hrest⟩ := Multiset.exists_cons_of_mem hnetwork
      have hle := hi.runs
      rw [hrest] at hle hw
      rcases Multiset.mem_cons.mp hw with rfl | hw
      · cases hwf
      · have htwo := add_le_total (w := Thread.runs) (t := .network) hw
        have hnet : Thread.network.runs = 1 := rfl
        omega

/-! ## Runs -/

/-- `AnswersFirst` as a test. -/
def answersFirst (c : Listed Shared Thread) (t : Thread) (_ : Choice) : Bool :=
  match t with
  | .callback (.entered .closed) _ => !c.shared.context.opener
  | _ => true

theorem answersFirst_sound (c : Listed Shared Thread) (t : Thread) (ch : Choice)
    (h : answersFirst c t ch = true) : AnswersFirst c.config t ch := by
  rintro caller rfl
  change (!c.shared.context.opener) = true at h
  change c.shared.context.opener = false
  simpa using h

/-- The connection fails before it is there. -/
def failed : Schedule :=
  connects ++ [(.network, [.event (.failure none (-105))] ++ go 5)] ++
    [(.engine .dropOperation, engineGo 3), (.callback .release (.network true), go 2)]

theorem open_resolves_failed :
    let c := (Pool.play step answersFirst start failed).config
    .opening .await ∈ c.threads ∧ Event.ran .connect ∈ c.shared.trace ∧
      c.shared.native.channel = false ∧ OpenResolves c := by
  refine ⟨by decide +kernel, by decide +kernel, by decide +kernel, ?_⟩
  exact open_resolves (play_reachable answersFirst_sound failed Reachable.start)

/-- The peer drops the connection while it is being set up. -/
def closedEarly : Schedule := connects ++ closed

theorem open_never_resolves :
    ∃ c, Reachable step (fun _ _ _ => True) start.config c ∧
      (∃ result, Event.finished result ∈ c.shared.trace) ∧ c.shared.context.opener = true ∧
      .opening .await ∈ c.threads ∧ c.shared.native.channel = false ∧ ¬ Resolves c.shared := by
  refine ⟨(Pool.play step unchecked start closedEarly).config,
    play_reachable (fun _ _ _ _ => trivial) closedEarly Reachable.start,
    ⟨.ok (), ?_⟩, ?_, ?_, ?_, ?_⟩
  · decide +kernel
  · decide +kernel
  · decide +kernel
  · decide +kernel
  · rintro ⟨p, hp⟩
    have hnone : step (Pool.play step unchecked start closedEarly).config.shared
        (.opening .await) .go = none := by decide +kernel
    rw [hnone] at hp
    cases hp

end TokioCronet.WebSocket
