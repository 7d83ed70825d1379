import TokioCronet.Lib.Followed
import TokioCronet.Request.Destruction

/-!
# One completion for each call of an upload

Cronet calls `upload_read` or `upload_rewind` and waits for one completion on the sink it
gave. The call is answered by a task that polls the caller's source, so it may be cut off by
`upload_close`, fail in several places, or panic. One call is followed here through a run, and
its completions are counted.
-/

namespace TokioCronet.Request

open Pool

variable {cfg : Settings} {s s' : Shared} {t u : Thread} {ch : Choice} {ts : List Thread}

/-! ## The completion gate -/

/-- A task that holds `completion_gate`. -/
def Thread.holdsGate : Thread → Nat
  | .upload (.locked _ _) | .upload (.fail _) | .upload .unlock => 1
  | _ => 0

theorem after_holdsGate (op : GatedOp) (e : Option Error) :
    ((op.after e).map Thread.holdsGate).sum = 0 := by
  fun_cases GatedOp.after op e <;> rfl

theorem leave_holdsGate (site : Site) : (site.leave.map Thread.holdsGate).sum = 0 := by
  cases site <;> rfl

theorem callback_holdsGate (r : Runnable) : ([r.callback].map Thread.holdsGate).sum = 0 := by
  cases r <;> rfl

@[simp] theorem Shared.releaseArc_upload (s : Shared) : s.releaseArc.upload = s.upload := by
  unfold Shared.releaseArc
  split_ifs <;> rfl

/-- What a step does to the gate. -/
def Completing (s : Shared) (t : Thread) (s' : Shared) (ts : List Thread) : Prop :=
  t.holdsGate ≤ s.upload.completionGate.toNat →
    s'.upload.completionGate.toNat + t.holdsGate =
      s.upload.completionGate.toNat + (ts.map Thread.holdsGate).sum

theorem holdsGate_kept (hgate : s'.upload.completionGate = s.upload.completionGate)
    (ht : t.holdsGate = (ts.map Thread.holdsGate).sum) : Completing s t s' ts := by
  intro _
  rw [hgate, ht]

theorem completing_aside (hgate : s'.upload = s.upload) (ht : t.holdsGate = 0)
    (hts : (ts.map Thread.holdsGate).sum = 0) : Completing s t s' ts :=
  holdsGate_kept (by rw [hgate]) (by rw [ht, hts])

theorem uploadStep_completing {p : Upload} (h : uploadStep cfg s p ch = some (s', ts)) :
    Completing s (.upload p) s' ts := by
  -- whoever leaves the gate has held it
  have hleaves : 1 ≤ s.upload.completionGate.toNat → s.upload.completionGate.toNat = 1 := by
    have hgate := Bool.toNat_le s.upload.completionGate
    omega
  revert h
  fun_cases uploadStep cfg s p ch <;> first | exact of_none | apply of_some
  case case12 op result hfree =>
    intro _
    rw [Bool.eq_false_iff.mpr hfree]
    rfl
  case case15 | case18 =>
    intro hle
    rw [hleaves hle]
    rfl
  all_goals exact holdsGate_kept rfl rfl

theorem step_completing (h : step cfg s t ch = some (s', ts)) : Completing s t s' ts := by
  revert h
  cases t <;> simp only [step]
  case outside who =>
    fun_cases outsideStep s who ch <;> first | exact of_none | apply of_some
    all_goals exact completing_aside rfl rfl rfl
  case start p =>
    fun_cases startStep s p ch <;> first | exact of_none | apply of_some
    all_goals exact completing_aside rfl rfl rfl
  case shutdown p =>
    fun_cases shutdownStep s p ch <;> first | exact of_none | apply of_some
    all_goals exact completing_aside rfl rfl rfl
  case control p =>
    fun_cases controlStep s p ch <;> first | exact of_none | apply of_some
    all_goals first
      | exact completing_aside rfl rfl rfl
      | exact completing_aside rfl rfl (after_holdsGate _ _)
  case runnable stage r =>
    fun_cases runnableStep s stage r ch <;> first | exact of_none | apply of_some
    all_goals first
      | exact completing_aside rfl rfl rfl
      | exact completing_aside rfl rfl (callback_holdsGate r)
  case callback p =>
    fun_cases callbackStep cfg s p ch <;> first | exact of_none | apply of_some
    all_goals
      exact completing_aside rfl rfl rfl
  case read p =>
    fun_cases readStep s p ch <;> first | exact of_none | apply of_some
    all_goals first
      | exact completing_aside rfl rfl rfl
      | exact completing_aside rfl rfl (leave_holdsGate _)
  case terminal p =>
    fun_cases terminalStep s p ch <;> first | exact of_none | apply of_some
    all_goals exact completing_aside rfl rfl rfl
  case task p =>
    fun_cases taskStep cfg s p ch <;> first | exact of_none | apply of_some
    all_goals first
      | exact completing_aside rfl rfl rfl
      | exact completing_aside s.releaseArc_upload rfl rfl
  case upload p => exact uploadStep_completing
  case cleanup p =>
    fun_cases cleanupStep s p ch <;> first | exact of_none | apply of_some
    all_goals first
      | exact completing_aside rfl rfl rfl
      | exact completing_aside s.releaseArc_upload rfl rfl
  case execute p =>
    fun_cases executeStep s p ch <;> first | exact of_none | apply of_some
    all_goals exact completing_aside rfl rfl rfl

/-- The gate is locked by one task. -/
theorem gate_reachable {allowed : Policy Shared Thread Choice} {c : Config Shared Thread}
    (h : Reachable (step cfg) allowed start.config c) :
    c.shared.upload.completionGate.toNat = total Thread.holdsGate c.threads := by
  refine h.invariant (P := fun c => c.shared.upload.completionGate.toNat =
    total Thread.holdsGate c.threads) rfl ?_
  intro c c' _ hi hs
  obtain ⟨-, hn⟩ := hs
  exact ledger_step hi (step_completing hn)

/-! ## One call -/

/-- What is noted of a task's own step: the choice, and the events it caused. -/
abbrev Note := Choice × List Event

/-- What a step shows of itself: its choice, and the events that it records. -/
def noted (s : Shared) (_ : Thread) (ch : Choice) (s' : Shared) : Note :=
  (ch, s'.trace.drop s.trace.length)

/-- The completions among the steps of a call. -/
def completions (log : List Note) : List (UploadOp × Bool) :=
  (log.flatMap Prod.snd).filterMap fun
    | .sink op ok => some (op, ok)
    | _ => none

/-- How often the source stayed pending. -/
def pendingPolls (log : List Note) : Nat := log.countP fun n => n.1 = .source .pending

/-- The source panicked in one of the steps. -/
def Panicked (log : List Note) : Prop := ∃ n ∈ log, n.1 = .source .panicked

instance (log : List Note) : Decidable (Panicked log) := by
  unfold Panicked
  infer_instance

theorem completions_snoc (log : List Note) (n : Note) :
    completions (log ++ [n]) = completions log ++ completions [n] := by
  rw [completions, List.flatMap_append, List.filterMap_append]
  rfl

theorem pendingPolls_snoc (log : List Note) (n : Note) :
    pendingPolls (log ++ [n]) = pendingPolls log + pendingPolls [n] := List.countP_append

theorem panicked_snoc {log : List Note} {n : Note} (h : n.1 ≠ .source .panicked) :
    Panicked (log ++ [n]) ↔ Panicked log := by
  constructor
  · rintro ⟨n', hmem, hn'⟩
    rcases List.mem_append.mp hmem with hmem | hmem
    · exact ⟨n', hmem, hn'⟩
    · exact absurd (List.mem_singleton.mp hmem ▸ hn') h
  · rintro ⟨n', hmem, hn'⟩
    exact ⟨n', List.mem_append_left _ hmem, hn'⟩

/-- How many steps a task has left, as long as the source does not stay pending. -/
def Upload.steps : Upload → Nat
  | .entered _ => 10
  | .reserve _ => 9
  | .closed _ => 8
  | .poll _ => 7
  | .lock _ (.ok _) => 6
  | .locked _ (.ok _) => 5
  | .lock _ (.error _) => 4
  | .locked _ (.error _) => 3
  | .fail _ => 2
  | .unlock => 1
  | .panicked _ | .close => 0

/-- How many steps an upload call has left at most. -/
def Thread.steps : Thread → Nat
  | .upload p => p.steps
  | _ => 0

/-- A task of a call of `op` that has not completed it. -/
def Upload.Works (op : UploadOp) : Upload → Prop
  | .entered op' | .reserve op' | .closed op' | .poll op' | .lock op' _ | .locked op' _
  | .fail op' => op' = op
  | .unlock | .panicked _ | .close => False

/-- What a task's step does to its call, with the events it causes. -/
inductive Upload.Moves (op : UploadOp) (p : Upload) (ch : Choice) :
    List Event → List Thread → Prop
  | works {l : List Event} {p' : Upload} : p.Works op → p'.Works op → ch ≠ .source .panicked →
      completions [(ch, l)] = [] → p'.steps + 1 ≤ p.steps + 2 * pendingPolls [(ch, l)] →
      p.Moves op ch l [.upload p']
  | completes {ok : Bool} : p.Works op → ch ≠ .source .panicked → 2 ≤ p.steps →
      p.Moves op ch [.sink op ok] [.upload .unlock]
  | refuses : p.Works op → ch ≠ .source .panicked → 1 ≤ p.steps →
      p.Moves op ch [.sink op false] []
  | panics : p.Works op → ch = .source .panicked → 1 ≤ p.steps →
      p.Moves op ch [] [.upload (.panicked op)]
  | ends : p = .unlock → ch ≠ .source .panicked → p.Moves op ch [] []

theorem uploadStep_moves {op : UploadOp} {p : Upload} (h : uploadStep cfg s p ch = some (s', ts))
    (hp : p.Works op ∨ p = .unlock) : ∃ l, s'.trace = s.trace ++ l ∧ p.Moves op ch l ts := by
  revert h hp
  fun_cases uploadStep cfg s p ch <;> first | exact of_none | (apply of_some; intro hp)
  case case18 => exact ⟨[], (List.append_nil _).symm, .ends rfl (by simp)⟩
  case case19 => exact absurd hp (by simp [Upload.Works])
  all_goals have hworks := hp.resolve_right (by simp)
  all_goals obtain rfl : _ = op := hworks
  case case1 => exact ⟨_, rfl, .refuses rfl (by simp) (Nat.le_of_ble_eq_true rfl)⟩
  case case13 => exact ⟨_, rfl, .completes rfl (by simp) (Nat.le_of_ble_eq_true rfl)⟩
  case case17 => exact ⟨_, rfl, .completes rfl (by simp) (Nat.le_of_ble_eq_true rfl)⟩
  case case10 =>
    exact ⟨[], (List.append_nil _).symm, .panics rfl rfl (Nat.le_of_ble_eq_true rfl)⟩
  case case16 => exact ⟨_, rfl, .works rfl rfl (by simp) rfl (Nat.le_of_ble_eq_true rfl)⟩
  case case9 result =>
    refine ⟨[], (List.append_nil _).symm, .works rfl rfl (by simp) rfl ?_⟩
    cases result <;> exact Nat.le_of_ble_eq_true rfl
  case case12 result _ =>
    refine ⟨[], (List.append_nil _).symm, .works rfl rfl (by simp) rfl ?_⟩
    cases result <;> exact Nat.le_of_ble_eq_true rfl
  all_goals
    exact ⟨[], (List.append_nil _).symm,
      .works rfl rfl (by simp) rfl (Nat.le_of_ble_eq_true rfl)⟩

/-- Where a call of `op` stands: it has completed, its task is gone, or neither. -/
def Phase (op : UploadOp) (log : List Note) : Option Thread → Prop
  | none | some (.upload .unlock) => (∃ ok, completions log = [(op, ok)]) ∧ ¬ Panicked log
  | some (.upload (.panicked _)) => completions log = [] ∧ Panicked log
  | some (.upload p) => p.Works op ∧ completions log = [] ∧ ¬ Panicked log
  | some _ => False

/-- What holds of a call as far as it has come. -/
structure CallInv (op : UploadOp) (m : Option Thread) (log : List Note) : Prop where
  /-- The call stands where its log says. -/
  phase : Phase op log m
  /-- It has taken no more steps than it can. -/
  steps : log.length + m.elim 0 Thread.steps ≤ 10 + 2 * pendingPolls log

theorem steps_snoc {log : List Note} {n : Note} {k k' : Nat}
    (h : log.length + k ≤ 10 + 2 * pendingPolls log)
    (hstep : k' + 1 ≤ k + 2 * pendingPolls [n]) :
    (log ++ [n]).length + k' ≤ 10 + 2 * pendingPolls (log ++ [n]) := by
  rw [pendingPolls_snoc, List.length_append, List.length_singleton]
  omega

theorem Phase.works {op : UploadOp} {log : List Note} {p : Upload}
    (h : Phase op log (some (.upload p)))
    (hp : p.Works op) : completions log = [] ∧ ¬ Panicked log := by
  cases p <;> first
    | exact h.2
    | exact absurd hp id

/-- The call has been completed, or it has not: then its task has panicked, or is at work. -/
theorem Phase.cases {op : UploadOp} {log : List Note} {m : Option Thread} (h : Phase op log m) :
    ((∃ ok, completions log = [(op, ok)]) ∧ ¬ Panicked log) ∨
    (completions log = [] ∧ (Panicked log ∨ ∃ p, m = some (.upload p) ∧ p.Works op)) := by
  cases m with
  | none => exact .inl h
  | some t =>
    cases t with
    | upload p =>
      cases p with
      | unlock => exact .inl h
      | panicked op' => exact .inr ⟨h.1, .inl h.2⟩
      | close => exact absurd h.1 id
      | _ => exact .inr ⟨h.2.1, .inr ⟨_, rfl, h.1⟩⟩
    | _ => exact absurd h id

theorem phase_of_works {op : UploadOp} {log : List Note} {p : Upload} (hp : p.Works op)
    (h : completions log = [] ∧ ¬ Panicked log) : Phase op log (some (.upload p)) := by
  cases p <;> first
    | exact ⟨hp, h⟩
    | exact absurd hp id

/-- **One step of a call.** It comes nearer to its end, unless the source stays pending; it
completes at most now, and only a panic takes it away before. -/
theorem callInv_step {op : UploadOp} {log : List Note} (hi : CallInv op (some t) log)
    (h : step cfg s t ch = some (s', ts)) :
    CallInv op ts.head? (log ++ [noted s t ch s']) := by
  obtain ⟨hphase, hsteps⟩ := hi
  cases t with
  | upload p =>
    have hp : p.Works op ∨ p = .unlock := by
      cases p with
      | panicked op' =>
        exact absurd h (by simp [step, uploadStep])
      | unlock => exact .inr rfl
      | close => exact absurd hphase.1 id
      | _ => exact .inl hphase.1
    obtain ⟨l, htrace, hmoves⟩ := uploadStep_moves h hp
    rw [noted, htrace, List.drop_left]
    induction hmoves with
    | works hworks hworks' hch hnone hle =>
      refine ⟨phase_of_works hworks' ?_, steps_snoc hsteps hle⟩
      rw [completions_snoc, hnone, panicked_snoc hch, List.append_nil]
      exact hphase.works hworks
    | @completes ok hworks hch hle =>
      obtain ⟨hnone, hno⟩ := hphase.works hworks
      refine ⟨⟨⟨ok, ?_⟩, (panicked_snoc hch).not.mpr hno⟩, steps_snoc hsteps
        (Nat.le_add_right_of_le hle)⟩
      rw [completions_snoc, hnone]
      rfl
    | refuses hworks hch hle =>
      obtain ⟨hnone, hno⟩ := hphase.works hworks
      refine ⟨⟨⟨false, ?_⟩, (panicked_snoc hch).not.mpr hno⟩, steps_snoc hsteps
        (Nat.le_add_right_of_le hle)⟩
      rw [completions_snoc, hnone]
      rfl
    | panics hworks hch hle =>
      obtain ⟨hnone, hno⟩ := hphase.works hworks
      refine ⟨⟨?_, ⟨_, List.mem_append_right _ (List.mem_singleton_self _), hch⟩⟩,
        steps_snoc hsteps (Nat.le_add_right_of_le hle)⟩
      rw [completions_snoc, hnone]
      rfl
    | ends hp hch =>
      subst hp
      obtain ⟨⟨ok, hone⟩, hno⟩ := hphase
      refine ⟨⟨⟨ok, ?_⟩, (panicked_snoc hch).not.mpr hno⟩, steps_snoc hsteps (Nat.le_add_right _ _)⟩
      rw [completions_snoc, hone]
      rfl
  | _ => exact absurd hphase id

/-! ## A run that has come to rest -/

/-- No task of an upload can take a step. -/
def AtRest (cfg : Settings) (c : Config Shared Thread) : Prop :=
  ∀ p, .upload p ∈ c.threads → ∀ ch, uploadStep cfg c.shared p ch = none

/-- The task that holds the gate goes on. -/
theorem completing_goes {p : Upload} (h : Thread.holdsGate (.upload p) ≠ 0) :
    uploadStep cfg s p .go ≠ none := by
  cases p with
  | locked op result => cases result <;> exact Option.some_ne_none _
  | fail op => exact Option.some_ne_none _
  | unlock => exact Option.some_ne_none _
  | _ => exact absurd rfl h

/-- At rest nobody holds the gate. -/
theorem AtRest.free {c : Config Shared Thread} (hrest : AtRest cfg c)
    (hgate : c.shared.upload.completionGate.toNat = total Thread.holdsGate c.threads) :
    c.shared.upload.completionGate = false := by
  have hnone : total Thread.holdsGate c.threads = 0 := by
    rw [total_eq_zero]
    intro t ht
    by_contra hne
    cases t with
    | upload p => exact completing_goes hne (hrest p ht .go)
    | _ => exact hne rfl
  rw [hnone] at hgate
  cases hc : c.shared.upload.completionGate with
  | false => rfl
  | true =>
    rw [hc] at hgate
    cases hgate

/-- A task that has not completed its call can go on, once the gate is free. -/
theorem Upload.Works.goes {op : UploadOp} {p : Upload} (h : p.Works op)
    (hfree : s.upload.completionGate = false) : ∃ ch, uploadStep cfg s p ch ≠ none := by
  cases p with
  | entered op' =>
    refine ⟨.go, ?_⟩
    cases op' with
    | read capacity =>
      rw [uploadStep]
      split <;> exact Option.some_ne_none _
    | rewind => exact Option.some_ne_none _
  | reserve op' => exact ⟨.go, Option.some_ne_none _⟩
  | closed op' =>
    refine ⟨.go, ?_⟩
    rw [uploadStep]
    split <;> exact Option.some_ne_none _
  | poll op' => exact ⟨.source .pending, Option.some_ne_none _⟩
  | lock op' result =>
    refine ⟨.go, ?_⟩
    rw [uploadStep, hfree]
    exact Option.some_ne_none _
  | locked op' result => exact ⟨.go, completing_goes (Nat.succ_ne_zero 0)⟩
  | fail op' => exact ⟨.go, Option.some_ne_none _⟩
  | _ => exact absurd h id

variable {s₀ : Shared} {rest₀ rest : Multiset Thread} {m : Option Thread} {log : List Note}
  {op : UploadOp}

/-- **A call of an upload is completed exactly once, unless its source panics.** It is never
completed twice. A task takes ten steps and two more for each time the source stays pending,
and when no task of the upload can go on the call has been completed. -/
theorem upload_completes_once
    (hcalled : Reachable (step cfg) (fun _ _ _ => True) start.config
      ⟨s₀, .upload (.entered op) ::ₘ rest₀⟩)
    (hfollowed : Followed (step cfg) (fun _ _ _ => True) noted s₀ (.upload (.entered op)) rest₀
      s m rest log) :
    (completions log).length ≤ 1 ∧ log.length ≤ 10 + 2 * pendingPolls log ∧
      (AtRest cfg ⟨s, m.toList + rest⟩ →
        ((∃ ok, completions log = [(op, ok)]) ↔ ¬ Panicked log)) := by
  have hcall : CallInv op (some (.upload (.entered op))) [] :=
    ⟨⟨rfl, rfl, fun ⟨_, hmem, _⟩ => List.not_mem_nil hmem⟩, Nat.le_refl _⟩
  have hinv : CallInv op m log := hfollowed.invariant (P := CallInv op) hcall callInv_step
  have hgate := gate_reachable (hfollowed.reachable hcalled)
  obtain ⟨hphase, hsteps⟩ := hinv
  refine ⟨?_, le_trans (Nat.le_add_right _ _) hsteps, fun hrest => ?_⟩
  · rcases hphase.cases with ⟨⟨ok, hone⟩, -⟩ | ⟨hnone, -⟩
    · exact (congrArg List.length hone).le
    · exact (congrArg List.length hnone).trans_le (Nat.zero_le 1)
  · rcases hphase.cases with ⟨hdone, hno⟩ | ⟨hnone, hgone⟩
    · exact iff_of_true hdone hno
    · refine iff_of_false (fun ⟨ok, hone⟩ => ?_) (not_not.mpr ?_)
      · rw [hnone] at hone
        cases hone
      · rcases hgone with hpanicked | ⟨p, rfl, hworks⟩
        · exact hpanicked
        · obtain ⟨ch, hgoes⟩ : ∃ ch, uploadStep cfg _ p ch ≠ none := hworks.goes (hrest.free hgate)
          refine absurd (hrest p (Multiset.mem_add.mpr (.inl ?_)) ch) hgoes
          exact Multiset.mem_singleton_self _

/-- A started request whose upload is rewound. -/
def rewinds : Listed Shared Thread :=
  Pool.play (step {}) (fun _ _ _ => true) start
    (starts ++ [(.outside .cronet, [.submit (.upload .rewind)]),
      (.runnable .queued (.upload .rewind), go 3)])

/-- The thread works on a call of the upload. -/
def Thread.isUpload : Thread → Bool
  | .upload _ => true
  | _ => false

theorem rewinds_called : Reachable (step {}) (fun _ _ _ => True) start.config
    ⟨rewinds.shared, .upload (.entered .rewind) ::ₘ (rewinds.threads.tail : Multiset Thread)⟩ := by
  have hreach : Reachable (step {}) (fun _ _ _ => True) start.config rewinds.config :=
    play_reachable (fun _ _ _ _ => trivial) _ Reachable.start
  have hthreads : rewinds.threads = .upload (.entered .rewind) :: rewinds.threads.tail := by
    decide +kernel
  have hconfig : rewinds.config =
      ⟨rewinds.shared,
        .upload (.entered .rewind) ::ₘ (rewinds.threads.tail : Multiset Thread)⟩ := by
    rw [Multiset.cons_coe, ← hthreads]
    rfl
  rw [← hconfig]
  exact hreach

/-- The call of `rewinds` up to the source. -/
theorem rewinds_polls : Followed (step {}) (fun _ _ _ => True) noted rewinds.shared
    (.upload (.entered .rewind)) rewinds.threads.tail rewinds.shared
    (some (.upload (.poll .rewind))) rewinds.threads.tail [(.go, []), (.go, [])] := by
  have hclosed : rewinds.shared.upload.closed = false := by decide +kernel
  generalize rewinds.shared = s at hclosed ⊢
  have hpoll : step {} s (.upload (.closed .rewind)) .go = some (s, [.upload (.poll .rewind)]) := by
    rw [step, uploadStep, hclosed]
    rfl
  have hquiet : ∀ t, noted s t .go s = (.go, []) := by
    intro t
    rw [noted, List.drop_length]
  have hentered := (Followed.start : Followed (step {}) (fun _ _ _ => True) noted s
    (.upload (.entered .rewind)) rewinds.threads.tail s _ rewinds.threads.tail []).goes
    trivial
    (rfl : step {} s (.upload (.entered .rewind)) .go = some (s, [.upload (.closed .rewind)]))
  have hpolls := hentered.goes trivial hpoll
  rw [hquiet, hquiet] at hpolls
  exact hpolls

theorem rewinds_others : ∀ t ∈ rewinds.threads.tail, t.isUpload = false := by
  decide +kernel

/-- A call whose source answers at once. -/
theorem upload_completes_once_rewinds : ∃ s log,
    Followed (step {}) (fun _ _ _ => True) noted rewinds.shared (.upload (.entered .rewind))
      rewinds.threads.tail s none rewinds.threads.tail log ∧
    ∃ ok, completions log = [(.rewind, ok)] := by
  have hfree : rewinds.shared.upload.completionGate = false := by decide +kernel
  have hpolls := rewinds_polls
  have hcalled := rewinds_called
  have hothers := rewinds_others
  generalize rewinds.shared = s at hfree hpolls hcalled ⊢
  generalize rewinds.threads.tail = rest at hpolls hcalled hothers ⊢
  have hlock : step {} s (.upload (.lock .rewind (.ok (0, false)))) .go =
      some ({ s with upload.completionGate := true },
        [.upload (.locked .rewind (.ok (0, false)))]) := by
    rw [step, uploadStep, hfree]
    rfl
  have hready : step {} s (.upload (.poll .rewind)) (.source (.ready (.ok (0, false)))) =
      some (s, [.upload (.lock .rewind (.ok (0, false)))]) := rfl
  have hsink : step {} { s with upload.completionGate := true }
      (.upload (.locked .rewind (.ok (0, false)))) .go =
      some ({ s with upload.completionGate := true, trace := s.trace ++ [.sink .rewind true] },
        [.upload .unlock]) := rfl
  have hunlock : step {}
      { s with upload.completionGate := true, trace := s.trace ++ [.sink .rewind true] }
      (.upload .unlock) .go =
      some ({ s with upload.completionGate := false, trace := s.trace ++ [.sink .rewind true] },
        []) := rfl
  have hended := (((hpolls.goes trivial hready).goes trivial hlock).goes trivial hsink).ends
    trivial hunlock
  refine ⟨_, _, hended, ?_⟩
  obtain ⟨-, -, hcompletes⟩ := upload_completes_once hcalled hended
  refine (hcompletes fun p hp => ?_).mpr ?_
  · exact absurd (hothers _ hp) Bool.noConfusion
  · simp [Panicked, noted]

/-- **The source panics in a rewind, and Cronet waits for ever.** -/
theorem upload_never_completes : ∃ s m log,
    Reachable (step {}) (fun _ _ _ => True) start.config
      ⟨rewinds.shared, .upload (.entered .rewind) ::ₘ (rewinds.threads.tail : Multiset Thread)⟩ ∧
    Followed (step {}) (fun _ _ _ => True) noted rewinds.shared (.upload (.entered .rewind))
      rewinds.threads.tail s m rewinds.threads.tail log ∧
    AtRest {} ⟨s, m.toList + rewinds.threads.tail⟩ ∧
    ¬ ∃ ok, completions log = [(.rewind, ok)] := by
  have hpanics : ∀ s, step {} s (.upload (.poll .rewind)) (.source .panicked) =
      some (s, [.upload (.panicked .rewind)]) := fun s => rfl
  refine ⟨_, _, _, rewinds_called, rewinds_polls.goes trivial (hpanics _), ?_, ?_⟩
  · intro p hp ch
    rcases Multiset.mem_add.mp hp with hown | hother
    · cases Multiset.mem_singleton.mp hown
      simp [uploadStep]
    · exact absurd (rewinds_others _ hother) Bool.noConfusion
  · rw [noted, List.drop_length]
    rintro ⟨ok, hone⟩
    cases hone

end TokioCronet.Request
