import TokioCronet.Nqe.Estimates

/-!
# Two places for one estimate

`observe` stores its estimate in `latest` and sends it to `updates`. The second store is
made only when somebody has subscribed: an estimate that is sent before the first
subscription, or between two of them, stays in `latest` alone.
-/

namespace TokioCronet.Nqe

/-! ## The program -/

/-- Where the task that `start` spawns stands. -/
inductive Observer where
  | idle
  | push (sample : Sample)
  | store (estimates : NetworkQualityEstimates)
  | send (estimates : NetworkQualityEstimates)
  deriving DecidableEq

/-- The estimator, a call of `observe` that may be between its two stores, and what was missed. -/
structure System where
  state : NqeState := {}
  observer : Observer := .idle
  /-- The last estimate that was sent did not reach anybody. -/
  missed : Bool := false
  deriving DecidableEq

/-- A call of the application, a request that the task receives, or the task's next step. -/
inductive Action where
  | configureForTesting (useLocalhost : Bool)
  | subscribe
  | dropReceiver
  | receive (info : RequestFinishedInfo)
  | go
  deriving DecidableEq

namespace System

/-- The next step of `observe`. -/
def go (s : System) : Checked System :=
  match s.observer with
  | .idle => return s
  | .push sample => do
    let (state, estimates) ← s.state.push sample
    return { s with state := state, observer := .store estimates }
  | .store estimates =>
    return { s with state := s.state.store estimates, observer := .send estimates }
  | .send estimates =>
    return { s with state := s.state.send estimates, observer := .idle,
                    missed := decide (s.state.updates.receivers = 0) }

/-- The task receives only when it is done with the last request. -/
def step (s : System) : Action → Checked System
  | .configureForTesting useLocalhost =>
    return { s with state := s.state.configureForTesting useLocalhost }
  | .subscribe => return { s with state.updates := s.state.updates.subscribe }
  | .dropReceiver => return { s with state.updates := s.state.updates.dropReceiver }
  | .receive info =>
    if s.observer = .idle then
      if s.state.skips info then return s
      else do
        let sample ← sampleOf info.metrics
        return { s with observer := .push sample }
    else return s
  | .go => s.go

/-- Actions one after another. -/
def run (s : System) (actions : List Action) : Checked System := actions.foldlM step s

end System

theorem bind_ok {α β : Type} {x : Checked α} {f : α → Checked β} {b : β}
    (h : (x >>= f) = .ok b) : ∃ a, x = .ok a ∧ f a = .ok b := by
  cases x with
  | error fault => cases h
  | ok a => exact ⟨a, rfl, h⟩

theorem map_ok {α β : Type} {x : Checked α} {f : α → β} {b : β} (h : x.map f = .ok b) :
    ∃ a, x = .ok a ∧ f a = b := by
  cases x with
  | error fault => cases h
  | ok a => exact ⟨a, rfl, Except.ok.inj h⟩

/-- The steps of the task are those of `observe`. -/
theorem run_observe {s : System} {state : NqeState} {info : RequestFinishedInfo}
    (hidle : s.observer = .idle) (h : s.state.observe info = .ok state) :
    ∃ s', s.run [.receive info, .go, .go, .go] = .ok s' ∧ s'.state = state ∧
      s'.observer = .idle := by
  obtain ⟨st, observer, missed⟩ := s
  obtain rfl : observer = .idle := hidle
  have hrun : ∀ s : System, s.run [.receive info, .go, .go, .go] =
      (s.step (.receive info) >>= fun s => s.go >>= fun s => s.go >>= fun s => s.go >>= pure) :=
    fun _ => rfl
  rw [hrun]
  unfold NqeState.observe at h
  by_cases hskips : st.skips info
  · rw [if_pos hskips] at h
    cases h
    refine ⟨⟨st, .idle, missed⟩, ?_, rfl, rfl⟩
    simp only [System.step, if_true, if_pos hskips]
    rfl
  · rw [if_neg hskips] at h
    obtain ⟨sample, hsample, h⟩ := bind_ok h
    obtain ⟨⟨pushed, estimates⟩, hpush, h⟩ := bind_ok h
    cases h
    refine ⟨⟨(pushed.store estimates).send estimates, .idle,
      decide (pushed.updates.receivers = 0)⟩, ?_, rfl, rfl⟩
    simp only [System.step, if_true, if_neg hskips, hsample]
    show (System.go ⟨st, .push sample, missed⟩ >>= _) = _
    simp only [System.go, hpush]
    rfl

/-! ## Agreement -/

/-- Outside of `observe`, a receiver reads what `network_quality` returns. -/
def Agrees (s : System) : Prop :=
  s.observer = .idle → s.state.updates.receivers ≠ 0 →
    s.state.updates.value = s.state.estimates

/-- Nobody subscribes between two requests when the last estimate was sent to nobody. -/
def Heard (s : System) : Action → Prop
  | .subscribe => s.observer = .idle → s.missed = false
  | _ => True

/-- Every step of a run is heard. -/
def AllHeard (s : System) : List Action → Prop
  | [] => True
  | a :: actions => Heard s a ∧ ∀ s', s.step a = .ok s' → AllHeard s' actions

/-- The two places agree when no call is between them, or nobody listens. -/
structure UpdatesInv (s : System) : Prop where
  /-- Between calls the two places agree, or what was sent reached nobody. -/
  idle : s.observer = .idle → s.state.updates.receivers = 0 ∧ s.missed = true ∨
    s.state.updates.value = s.state.latest ∧ s.missed = false
  /-- A call between its stores has made the first. -/
  send : ∀ estimates, s.observer = .send estimates → s.state.latest = estimates

theorem updatesInv_init : UpdatesInv {} where
  idle _ := .inr ⟨rfl, rfl⟩
  send _ h := nomatch h

theorem updatesInv_go {s s' : System} (hi : UpdatesInv s) (h : s.go = .ok s') :
    UpdatesInv s' := by
  obtain ⟨state, observer, missed⟩ := s
  cases observer with
  | idle =>
    cases h
    exact hi
  | push sample =>
    obtain ⟨⟨pushed, estimates⟩, -, h⟩ := bind_ok h
    cases h
    exact ⟨nofun, nofun⟩
  | store estimates =>
    cases h
    refine ⟨nofun, fun e he => ?_⟩
    cases he
    rfl
  | send estimates =>
    cases h
    refine ⟨fun _ => ?_, nofun⟩
    have hlatest : state.latest = estimates := hi.send estimates rfl
    by_cases hnone : state.updates.receivers = 0
    · refine .inl ⟨?_, decide_eq_true hnone⟩
      simp only [NqeState.send, Watch.send, if_pos hnone]
      exact hnone
    · refine .inr ⟨?_, decide_eq_false hnone⟩
      simp only [NqeState.send, Watch.send, if_neg hnone]
      exact hlatest.symm

theorem updatesInv_step {s s' : System} {a : Action} (hi : UpdatesInv s) (hheard : Heard s a)
    (h : s.step a = .ok s') : UpdatesInv s' := by
  cases a with
  | configureForTesting useLocalhost =>
    cases h
    exact ⟨hi.idle, hi.send⟩
  | subscribe =>
    cases h
    refine ⟨fun hidle => ?_, hi.send⟩
    rcases hi.idle hidle with ⟨-, hmissed⟩ | hboth
    · rw [hheard hidle] at hmissed
      contradiction
    · exact .inr hboth
  | dropReceiver =>
    cases h
    refine ⟨fun hidle => ?_, hi.send⟩
    rcases hi.idle hidle with ⟨hnone, hmissed⟩ | hboth
    · exact .inl ⟨by simp [Watch.dropReceiver, hnone], hmissed⟩
    · exact .inr hboth
  | receive info =>
    simp only [System.step] at h
    split at h
    · split at h
      · cases h
        exact hi
      · obtain ⟨sample, -, h⟩ := bind_ok h
        cases h
        exact ⟨nofun, nofun⟩
    · cases h
      exact hi
  | go => exact updatesInv_go hi h

theorem updatesInv_run {s s' : System} {actions : List Action} (hi : UpdatesInv s)
    (hheard : AllHeard s actions) (h : s.run actions = .ok s') : UpdatesInv s' := by
  induction actions generalizing s with
  | nil =>
    cases h
    exact hi
  | cons a actions ih =>
    rw [System.run, List.foldlM_cons] at h
    obtain ⟨next, hnext, h⟩ := bind_ok h
    exact ih (updatesInv_step hi hheard.1 hnext) (hheard.2 next hnext) h

theorem UpdatesInv.agrees {s : System} (hi : UpdatesInv s) : Agrees s := by
  intro hidle hsome
  rcases hi.idle hidle with ⟨hnone, -⟩ | ⟨heq, -⟩
  · exact absurd hnone hsome
  · exact heq

/-- Nothing that a lock section of `observe` computes can panic. -/
theorem summarize_total (samples : List Sample) : ∃ e, summarize samples = .ok e := by
  obtain ⟨http, hhttp, -⟩ := median_ok (samples.filterMap (·.httpRttMs))
  obtain ⟨transport, htransport, -⟩ := median_ok (samples.filterMap (·.transportRttMs))
  obtain ⟨throughput, hthroughput, -⟩ := median_ok (samples.filterMap (·.throughputKbps))
  unfold summarize
  rw [hhttp, htransport, hthroughput]
  exact ⟨_, rfl⟩

theorem go_ok (s : System) : ∃ s', s.go = .ok s' := by
  obtain ⟨state, observer, missed⟩ := s
  cases observer with
  | push sample =>
    obtain ⟨e, he⟩ := summarize_total (popExcess (state.samples ++ [sample]))
    simp only [System.go, NqeState.push, he]
    exact ⟨_, rfl⟩
  | _ => exact ⟨_, rfl⟩

/-- No step panics on a valid request. -/
theorem step_ok {s : System} {a : Action} (h : ∀ info, a = .receive info → info.metrics.Valid) :
    ∃ s', s.step a = .ok s' := by
  cases a with
  | receive info =>
    simp only [System.step, sampleOf_ok (h info rfl)]
    split
    · split <;> exact ⟨_, rfl⟩
    · exact ⟨_, rfl⟩
  | go => exact go_ok s
  | _ => exact ⟨_, rfl⟩

theorem run_ok {s : System} {actions : List Action}
    (h : ∀ info, .receive info ∈ actions → info.metrics.Valid) :
    ∃ s', s.run actions = .ok s' := by
  induction actions generalizing s with
  | nil => exact ⟨s, rfl⟩
  | cons a actions ih =>
    obtain ⟨next, hnext⟩ := step_ok (s := s) (a := a)
      fun info heq => h info (heq ▸ List.mem_cons_self)
    obtain ⟨s', hs'⟩ := ih (s := next) fun info hinfo => h info (List.mem_cons_of_mem a hinfo)
    refine ⟨s', ?_⟩
    rw [← hs', System.run, List.foldlM_cons, hnext]
    rfl

/-- **A receiver reads the estimates**, in every run in which nobody subscribes between two
requests while the last estimate has gone to nobody. -/
theorem receivers_agree {actions : List Action} (hheard : AllHeard {} actions) :
    (∀ s, System.run {} actions = .ok s → Agrees s) ∧
      ((∀ info, .receive info ∈ actions → info.metrics.Valid) →
        ∃ s, System.run {} actions = .ok s) :=
  ⟨fun _ h => (updatesInv_run updatesInv_init hheard h).agrees, run_ok⟩

/-- A request with a round trip of 50 ms. -/
def oneRequest : RequestFinishedInfo where
  metrics := { requestStart := some 0, requestEnd := some 50, receivedByteCount := 1000 }
  response := none

/-- `AllHeard` as a test. -/
def allHeard (s : System) : List Action → Bool
  | [] => true
  | a :: actions =>
    (a != .subscribe || s.observer != .idle || !s.missed) &&
      match s.step a with
      | .ok s' => allHeard s' actions
      | .error _ => true

theorem allHeard_sound {s : System} {actions : List Action} (h : allHeard s actions = true) :
    AllHeard s actions := by
  induction actions generalizing s with
  | nil => trivial
  | cons a actions ih =>
    rw [allHeard, Bool.and_eq_true] at h
    refine ⟨?_, fun s' hs' => ih ?_⟩
    · cases a with
      | subscribe =>
        intro hidle
        simpa [hidle] using h.1
      | _ => trivial
    · rw [hs'] at h
      exact h.2

/-- A subscription, a request, and a second subscription. -/
def subscribesFirst : List Action :=
  [.subscribe, .receive oneRequest, .go, .go, .go, .subscribe]

theorem receivers_agree_subscribesFirst :
    ∃ s, AllHeard {} subscribesFirst ∧ System.run {} subscribesFirst = .ok s ∧
      s.state.updates.receivers = 2 ∧ Agrees s := by
  have hheard : AllHeard {} subscribesFirst := allHeard_sound (by decide +kernel)
  obtain ⟨s, hs, hcount⟩ : ∃ s, System.run {} subscribesFirst = .ok s ∧
      s.state.updates.receivers = 2 := map_ok (by decide +kernel)
  exact ⟨s, hheard, hs, hcount, (receivers_agree hheard).1 s hs⟩

/-- A request, and a subscription after it. -/
def subscribesLate : List Action := [.receive oneRequest, .go, .go, .go, .subscribe]

/-- **A late subscriber reads the default**: the estimate of the first request went to nobody. -/
theorem late_subscriber_disagrees :
    ∃ s, System.run {} subscribesLate = .ok s ∧
      (s.state.estimates.httpRtt = some 50 ∧ s.state.updates.value.httpRtt = none) ∧
      ¬ Agrees s := by
  obtain ⟨s, hs, heq⟩ : ∃ s, System.run {} subscribesLate = .ok s ∧
      (s.observer, s.state.updates.receivers, s.state.estimates.httpRtt,
        s.state.updates.value.httpRtt) = (.idle, 1, some 50, none) := map_ok (by decide +kernel)
  simp only [Prod.mk.injEq] at heq
  obtain ⟨hidle, hone, hrtt, hvalue⟩ := heq
  refine ⟨s, hs, ⟨hrtt, hvalue⟩, fun hagrees => ?_⟩
  have hsame := hagrees hidle (by omega)
  rw [hsame, hrtt] at hvalue
  cases hvalue

end TokioCronet.Nqe
