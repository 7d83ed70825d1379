import Mathlib.Data.List.ReduceOption
import TokioCronet.Lib.Median
import TokioCronet.Nqe.State

/-!
# What the estimates say

Each accepted request has up to three metrics. The estimate is, for each of them, the upper
median over the requests of the window that have it. None of the arithmetic on the way can
panic, whatever the times are, as long as they are not negative.
-/

namespace TokioCronet.Nqe

/-! ## The metrics of a request -/

/-- The time from one instant to another one that is not before it. -/
def gap : Option Int → Option Int → Option Int
  | some finish, some start => if start ≤ finish then some (finish - start) else none
  | _, _ => none

namespace RequestMetrics

/-- From the end of the sending to the response, or the whole request. -/
def httpRtt (m : RequestMetrics) : Option Int :=
  (gap m.responseStart m.sendingEnd).or (gap m.requestEnd m.requestStart)

/-- How long the transport took. -/
def transportRtt (m : RequestMetrics) : Option Int := gap m.connectEnd m.connectStart

/-- Bits for each millisecond of a request that took some time and brought some bytes, if that
fits an `i32`. -/
def throughput (m : RequestMetrics) : Option Int :=
  match m.requestEnd, m.requestStart with
  | some finish, some start =>
    if start < finish ∧ 0 < m.receivedByteCount then
      i32TryFrom (min (m.receivedByteCount * 8) i64Max / (finish - start))
    else none
  | _, _ => none

/-- The times that are there. -/
def times (m : RequestMetrics) : List Int :=
  [m.requestStart, m.connectStart, m.connectEnd, m.sendingEnd, m.responseStart,
    m.requestEnd].reduceOption

/-- No time is negative, and all values are those of an `i64`. -/
structure Valid (m : RequestMetrics) : Prop where
  /-- The times are those of a clock. -/
  times : ∀ t ∈ m.times, 0 ≤ t ∧ t ≤ i64Max
  /-- The count is an `i64`. -/
  receivedByteCount : InI64 m.receivedByteCount

/-- The sample of a request. -/
def sample (m : RequestMetrics) : Sample where
  httpRttMs := m.httpRtt
  transportRttMs := m.transportRtt
  throughputKbps := m.throughput

end RequestMetrics

/-- Not negative, and at most `bound`. -/
def Within (bound : Int) (o : Option Int) : Prop := ∀ n ∈ o, 0 ≤ n ∧ n ≤ bound

variable {m : RequestMetrics} {finish start : Option Int}

theorem gap_within (hfinish : Within i64Max finish) (hstart : Within i64Max start) :
    Within i64Max (gap finish start) := by
  intro n hn
  unfold gap at hn
  split at hn
  · rename_i finish start
    have hle := (hfinish finish rfl).2
    have hpos := (hstart start rfl).1
    split at hn
    · cases hn
      omega
    · cases hn
  · cases hn

theorem elapsed_ok (hfinish : Within i64Max finish) (hstart : Within i64Max start) :
    elapsed finish start = .ok (gap finish start) := by
  cases finish with
  | none => rfl
  | some finish =>
    cases start with
    | none => rfl
    | some start =>
      have hle := (hfinish finish rfl).2
      have hpos := (hstart start rfl).1
      simp only [elapsed, gap]
      by_cases hlt : start ≤ finish
      · have hrange : InI64 (finish - start) := by
          unfold InI64 i64Min
          omega
        rw [if_pos hlt, if_pos hlt, sub, if_pos hrange]
        rfl
      · rw [if_neg hlt, if_neg hlt]
        rfl

/-- A time that is there is one of the times. -/
theorem RequestMetrics.Valid.within (h : m.Valid) {o : Option Int}
    (ho : o ∈ [m.requestStart, m.connectStart, m.connectEnd, m.sendingEnd, m.responseStart,
      m.requestEnd]) : Within i64Max o := by
  intro n hn
  refine h.times n (List.reduceOption_mem_iff.mpr ?_)
  rw [Option.mem_def.mp hn] at ho
  exact ho

theorem httpRttMs_ok (h : m.Valid) : httpRttMs m = .ok m.httpRtt := by
  have hgap := elapsed_ok (h.within (o := m.responseStart) (by simp))
    (h.within (o := m.sendingEnd) (by simp))
  have hwhole := elapsed_ok (h.within (o := m.requestEnd) (by simp))
    (h.within (o := m.requestStart) (by simp))
  unfold httpRttMs RequestMetrics.httpRtt
  rw [hgap, hwhole]
  cases gap m.responseStart m.sendingEnd <;> rfl

theorem transportRttMs_ok (h : m.Valid) : transportRttMs m = .ok m.transportRtt :=
  elapsed_ok (h.within (by simp)) (h.within (by simp))

theorem httpRtt_within (h : m.Valid) : Within i64Max m.httpRtt := by
  intro n hn
  rcases Option.or_eq_some_iff.mp (Option.mem_def.mp hn) with hgap | ⟨-, hwhole⟩
  · exact gap_within (h.within (by simp)) (h.within (by simp)) n hgap
  · exact gap_within (h.within (by simp)) (h.within (by simp)) n hwhole

theorem transportRtt_within (h : m.Valid) : Within i64Max m.transportRtt :=
  gap_within (h.within (by simp)) (h.within (by simp))

theorem throughputKbps_ok (h : m.Valid) : throughputKbps m = .ok m.throughput := by
  unfold throughputKbps RequestMetrics.throughput
  cases hfinish : m.requestEnd with
  | none => rfl
  | some finish =>
    cases hstart : m.requestStart with
    | none => rfl
    | some start =>
      have hle := (h.within (o := m.requestEnd) (by simp) finish hfinish).2
      have hpos := (h.within (o := m.requestStart) (by simp) start hstart).1
      by_cases hlt : start < finish
      · have hrange : InI64 (finish - start) := by
          unfold InI64 i64Min
          omega
        simp only [if_pos hlt, sub, if_pos hrange]
        by_cases hbytes : 0 < m.receivedByteCount
        · have hduration : ¬ (finish - start = 0 ∨ m.receivedByteCount ≤ 0) := by omega
          have hmul : saturatingMul m.receivedByteCount 8 =
              min (m.receivedByteCount * 8) i64Max := by
            unfold saturatingMul i64Min i64Max
            omega
          have hnonneg : 0 ≤ min (m.receivedByteCount * 8) i64Max := by
            unfold i64Max
            omega
          have hquot : (min (m.receivedByteCount * 8) i64Max).tdiv (finish - start) =
              min (m.receivedByteCount * 8) i64Max / (finish - start) :=
            Int.tdiv_eq_ediv_of_nonneg hnonneg
          have hquotRange :
              InI64 (min (m.receivedByteCount * 8) i64Max / (finish - start)) := by
            have hlower := Int.ediv_nonneg hnonneg (show 0 ≤ finish - start by omega)
            have hupper := Int.ediv_le_self (finish - start) hnonneg
            have hmin := min_le_right (m.receivedByteCount * 8) i64Max
            unfold InI64 i64Min
            omega
          have hdiv : div (saturatingMul m.receivedByteCount 8) (finish - start) =
              .ok (min (m.receivedByteCount * 8) i64Max / (finish - start)) := by
            rw [div, if_neg (by omega), hmul, hquot, if_pos hquotRange]
          rw [if_pos ⟨hlt, hbytes⟩]
          simp only [bind, Except.bind, if_neg hduration, hdiv]
          rfl
        · have hduration : finish - start = 0 ∨ m.receivedByteCount ≤ 0 := by omega
          rw [if_neg fun hboth => hbytes hboth.2]
          simp only [bind, Except.bind, if_pos hduration]
          rfl
      · simp only [if_neg hlt]
        rw [if_neg fun hboth => hlt hboth.1]
        rfl

theorem throughput_fits : ∀ n ∈ m.throughput, i32TryFrom n = some n := by
  intro n hn
  have hfits : ∀ k, i32TryFrom k = some n → i32TryFrom n = some n := by
    intro k hk
    have heq := hk
    unfold i32TryFrom at heq
    split at heq
    · cases heq
      exact hk
    · cases heq
  unfold RequestMetrics.throughput at hn
  split at hn
  · split at hn
    · exact hfits _ hn
    · cases hn
  · cases hn

/-- **The arithmetic of a sample cannot panic.** -/
theorem sampleOf_ok (h : m.Valid) : sampleOf m = .ok m.sample := by
  unfold sampleOf
  rw [httpRttMs_ok h, transportRttMs_ok h, throughputKbps_ok h]
  rfl

/-! ## The window -/

/-- The last samples, as many as are kept. -/
def window {α : Type} (l : List α) : List α := l.drop (l.length - sampleLimit)

theorem popExcess_eq (samples : List Sample) : popExcess samples = window samples := by
  induction samples with
  | nil => rfl
  | cons sample samples ih =>
    unfold popExcess window
    by_cases hlt : sampleLimit < (sample :: samples).length
    · have hlen : (sample :: samples).length - sampleLimit =
          samples.length - sampleLimit + 1 := by
        rw [List.length_cons] at hlt ⊢
        omega
      rw [if_pos hlt, ih, hlen, List.drop_succ_cons, window]
    · rw [if_neg hlt, Nat.sub_eq_zero_of_le (not_lt.mp hlt), List.drop_zero]

theorem window_map {α β : Type} (f : α → β) (l : List α) :
    window (l.map f) = (window l).map f := by
  rw [window, window, List.length_map, List.map_drop]

/-- What left the window does not come back. -/
theorem window_append {α : Type} (l : List α) (x : α) :
    window (window l ++ [x]) = window (l ++ [x]) := by
  unfold window
  rw [List.length_append, List.length_append, List.length_drop, List.length_singleton]
  by_cases hlt : l.length < sampleLimit
  · rw [Nat.sub_eq_zero_of_le hlt.le, List.drop_zero]
    rfl
  · have hlen : l.length - (l.length - sampleLimit) + 1 - sampleLimit = 1 := by
      unfold sampleLimit at hlt ⊢
      omega
    have hle : l.length - sampleLimit + 1 = l.length + 1 - sampleLimit := by omega
    rw [hlen, ← hle, ← List.drop_append_of_le_length (Nat.sub_le _ _), List.drop_drop]

/-! ## Medians -/

theorem median_ok (values : List Int) :
    ∃ o, median values = .ok o ∧ Median.Describes values o := by
  unfold median
  by_cases hnil : values = []
  · exact ⟨none, by rw [if_pos hnil]; rfl, hnil⟩
  · obtain ⟨value, hget, hupper⟩ := Median.exists_of_sort hnil
    exact ⟨some value, by rw [if_neg hnil, hget]; rfl, hupper⟩

/-- What the values have, their median has. -/
theorem describes_mem {values : List Int} {o : Option Int} (h : Median.Describes values o) :
    ∀ n ∈ o, n ∈ values := by
  intro n hn
  cases hn
  exact h.mem

theorem u64TryFrom_nonneg {o : Option Int} (h : ∀ n ∈ o, 0 ≤ n) :
    (o.bind u64TryFrom).map Int.ofNat = o := by
  cases o with
  | none => rfl
  | some n =>
    have hpos := h n rfl
    rw [Option.bind_some, u64TryFrom, if_pos hpos, Option.map_some]
    exact congrArg some (Int.toNat_of_nonneg hpos)

/-- **What an estimate reports** of the requests it was made from. -/
structure Reports (requests : List RequestMetrics) (e : NetworkQualityEstimates) : Prop where
  /-- The median of their HTTP round trips. -/
  httpRtt : Median.Describes (requests.filterMap (·.httpRtt)) (e.httpRtt.map Int.ofNat)
  /-- The median of their transport round trips. -/
  transportRtt :
    Median.Describes (requests.filterMap (·.transportRtt)) (e.transportRtt.map Int.ofNat)
  /-- The median of their throughputs. -/
  throughput :
    Median.Describes (requests.filterMap (·.throughput)) e.downstreamThroughputKbps
  /-- The type of connection is that of the round trip. -/
  connectionType :
    e.effectiveConnectionType = effectiveConnectionType (e.httpRtt.map Int.ofNat)

theorem filterMap_samples (requests : List RequestMetrics) (f : Sample → Option Int) :
    (requests.map RequestMetrics.sample).filterMap f =
      requests.filterMap (f ∘ RequestMetrics.sample) :=
  List.filterMap_map

theorem summarize_ok {requests : List RequestMetrics} (h : ∀ m ∈ requests, m.Valid) :
    ∃ e, summarize (requests.map RequestMetrics.sample) = .ok e ∧ Reports requests e := by
  obtain ⟨http, hhttp, hhttpDescribes⟩ := median_ok (requests.filterMap (·.httpRtt))
  obtain ⟨transport, htransport, htransportDescribes⟩ :=
    median_ok (requests.filterMap (·.transportRtt))
  obtain ⟨throughput, hthroughput, hthroughputDescribes⟩ :=
    median_ok (requests.filterMap (·.throughput))
  have hhttpNonneg : ∀ n ∈ http, 0 ≤ n := by
    intro n hn
    obtain ⟨m, hm, hmn⟩ := List.mem_filterMap.mp (describes_mem hhttpDescribes n hn)
    exact (httpRtt_within (h m hm) n hmn).1
  have htransportNonneg : ∀ n ∈ transport, 0 ≤ n := by
    intro n hn
    obtain ⟨m, hm, hmn⟩ := List.mem_filterMap.mp (describes_mem htransportDescribes n hn)
    exact (transportRtt_within (h m hm) n hmn).1
  have hfits : throughput.bind i32TryFrom = throughput := by
    cases throughput with
    | none => rfl
    | some n =>
      obtain ⟨m, -, hmn⟩ := List.mem_filterMap.mp (describes_mem hthroughputDescribes n rfl)
      exact throughput_fits n hmn
  have hround := u64TryFrom_nonneg hhttpNonneg
  refine ⟨{ httpRtt := http.bind u64TryFrom, transportRtt := transport.bind u64TryFrom,
            downstreamThroughputKbps := throughput.bind i32TryFrom,
            effectiveConnectionType := effectiveConnectionType http }, ?_, ?_, ?_, ?_, ?_⟩
  · unfold summarize
    rw [filterMap_samples, filterMap_samples, filterMap_samples]
    simp only [Function.comp_def, RequestMetrics.sample, hhttp, htransport, hthroughput]
    rfl
  · rw [hround]
    exact hhttpDescribes
  · rw [u64TryFrom_nonneg htransportNonneg]
    exact htransportDescribes
  · rw [hfits]
    exact hthroughputDescribes
  · rw [hround]

/-! ## Runs -/

/-- A call on the state. -/
inductive Call where
  | configureForTesting (useLocalhost : Bool)
  | observe (info : RequestFinishedInfo)
  deriving DecidableEq

/-- One call. -/
def NqeState.call (s : NqeState) : Call → Checked NqeState
  | .configureForTesting useLocalhost => return s.configureForTesting useLocalhost
  | .observe info => s.observe info

/-- Calls one after another. -/
def NqeState.calls (s : NqeState) (cs : List Call) : Checked NqeState :=
  cs.foldlM NqeState.call s

/-- The requests that are not skipped, with the flag as it is at their time. -/
def accepted (skipLocalhost : Bool) : List Call → List RequestMetrics
  | [] => []
  | .configureForTesting useLocalhost :: cs => accepted (!useLocalhost) cs
  | .observe info :: cs =>
    if skipLocalhost && isLocalhost info then accepted skipLocalhost cs
    else info.metrics :: accepted skipLocalhost cs

/-- The window holds the last of the accepted requests, and the estimate reports on them. -/
structure EstimatesInv (requests : List RequestMetrics) (s : NqeState) : Prop where
  /-- The requests have valid metrics. -/
  valid : ∀ m ∈ requests, m.Valid
  /-- The window has the samples of the last requests. -/
  samples : s.samples = (window requests).map RequestMetrics.sample
  /-- The estimate reports on them. -/
  latest : Reports (window requests) s.latest

theorem estimatesInv_init : EstimatesInv [] {} where
  valid := List.forall_mem_nil _
  samples := rfl
  latest := ⟨rfl, rfl, rfl, rfl⟩

theorem estimatesInv_observe {requests : List RequestMetrics} {s : NqeState}
    {info : RequestFinishedInfo} (hi : EstimatesInv requests s) (hvalid : info.metrics.Valid)
    (hskips : s.skips info = false) :
    ∃ s', s.observe info = .ok s' ∧ s'.skipLocalhost = s.skipLocalhost ∧
      EstimatesInv (requests ++ [info.metrics]) s' := by
  have hall : ∀ m ∈ requests ++ [info.metrics], m.Valid := by
    intro m hm
    rcases List.mem_append.mp hm with hm | hm
    · exact hi.valid m hm
    · rw [List.mem_singleton.mp hm]
      exact hvalid
  have hsamples : popExcess (s.samples ++ [info.metrics.sample]) =
      (window (requests ++ [info.metrics])).map RequestMetrics.sample := by
    rw [popExcess_eq, hi.samples, ← window_map, window_append, ← window_map, List.map_append]
    rfl
  have hwindow : ∀ m ∈ window (requests ++ [info.metrics]), m.Valid := fun m hm =>
    hall m (List.mem_of_mem_drop hm)
  obtain ⟨e, he, hreports⟩ := summarize_ok hwindow
  let pushed : NqeState := { s with samples := popExcess (s.samples ++ [info.metrics.sample]) }
  have hpush : s.push info.metrics.sample = .ok (pushed, e) := by
    rw [NqeState.push, hsamples, he]
    simp only [pushed, hsamples]
    rfl
  refine ⟨(pushed.store e).send e, ?_, rfl, hall, hsamples, hreports⟩
  rw [NqeState.observe, hskips, sampleOf_ok hvalid]
  simp only [bind, Except.bind, hpush, Bool.false_eq_true, if_false]
  rfl

theorem estimatesInv_calls {requests : List RequestMetrics} {s : NqeState} {cs : List Call}
    (hi : EstimatesInv requests s) (h : ∀ info, .observe info ∈ cs → info.metrics.Valid) :
    ∃ s', s.calls cs = .ok s' ∧
      EstimatesInv (requests ++ accepted s.skipLocalhost cs) s' := by
  induction cs generalizing requests s with
  | nil => exact ⟨s, rfl, by rwa [accepted, List.append_nil]⟩
  | cons c cs ih =>
    have hrest : ∀ info, .observe info ∈ cs → info.metrics.Valid :=
      fun info hinfo => h info (List.mem_cons_of_mem c hinfo)
    cases c with
    | configureForTesting useLocalhost =>
      obtain ⟨s', hs', hi'⟩ := ih (s := s.configureForTesting useLocalhost)
        ⟨hi.valid, hi.samples, hi.latest⟩ hrest
      exact ⟨s', hs', hi'⟩
    | observe info =>
      cases hskips : s.skips info with
      | true =>
        obtain ⟨s', hs', hi'⟩ := ih hi hrest
        refine ⟨s', ?_, ?_⟩
        · rw [← hs', NqeState.calls, List.foldlM_cons, NqeState.call, NqeState.observe, hskips]
          rfl
        · have hskipped : (s.skipLocalhost && isLocalhost info) = true := hskips
          rw [accepted, if_pos hskipped]
          exact hi'
      | false =>
        obtain ⟨next, hnext, hskip, hinext⟩ := estimatesInv_observe hi
          (h info List.mem_cons_self) hskips
        obtain ⟨s', hs', hi'⟩ := ih hinext hrest
        refine ⟨s', ?_, ?_⟩
        · rw [← hs', NqeState.calls, List.foldlM_cons, NqeState.call, hnext]
          rfl
        · rw [accepted, if_neg (by rw [← NqeState.skips, hskips]; exact Bool.false_ne_true),
            List.append_cons, ← hskip]
          exact hi'

/-- **The estimates are the medians of the last accepted requests**, after every sequence of
calls, and none of the calls panics. -/
theorem estimates_reported (cs : List Call)
    (h : ∀ info, .observe info ∈ cs → info.metrics.Valid) :
    ∃ s, NqeState.calls {} cs = .ok s ∧ Reports (window (accepted true cs)) s.estimates := by
  obtain ⟨s, hs, hi⟩ := estimatesInv_calls estimatesInv_init h
  exact ⟨s, hs, hi.latest⟩

/-- A request that took 50 ms and one whose byte count is as large as it can be. -/
def twoRequests : List Call :=
  [.observe { metrics := { requestStart := some 0, requestEnd := some 50,
                           sendingEnd := some 10, responseStart := some 40,
                           receivedByteCount := 1000 }, response := none },
   .observe { metrics := { requestStart := some 0, requestEnd := some i64Max,
                           connectStart := some 3, connectEnd := some 8,
                           receivedByteCount := i64Max },
              response := some "https://example.test/".toList }]

theorem estimates_reported_two :
    (∀ info, .observe info ∈ twoRequests → info.metrics.Valid) ∧
    ∃ s, NqeState.calls {} twoRequests = .ok s ∧
      Reports (window (accepted true twoRequests)) s.estimates := by
  have hvalid : ∀ info, .observe info ∈ twoRequests → info.metrics.Valid := by
    intro info hinfo
    rcases List.mem_cons.mp hinfo with heq | hinfo
    · cases heq
      exact ⟨by decide, by decide⟩
    · cases List.mem_singleton.mp hinfo
      exact ⟨by decide, by decide⟩
  exact ⟨hvalid, estimates_reported twoRequests hvalid⟩

end TokioCronet.Nqe
