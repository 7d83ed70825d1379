import Mathlib.Algebra.Group.Int.Defs
import Mathlib.Data.List.Basic
import Mathlib.Data.List.Infix

/-!
# The network quality estimator

`nqe.rs`: what `observe` takes from the metrics of a finished request, the window of
samples, and the two places where the estimate is kept. The 64-bit arithmetic is on
integers, and an operation that would panic is a fault.
-/

namespace TokioCronet.Nqe

/-! ## Arithmetic -/

/-- Where a checked build of the program panics. -/
inductive Fault where
  | overflow
  | divideByZero
  | outOfBounds
  deriving DecidableEq

/-- A computation that may fault. -/
abbrev Checked (α : Type) := Except Fault α

/-- `i64::MIN` -/
def i64Min : Int := -2 ^ 63

/-- `i64::MAX` -/
def i64Max : Int := 2 ^ 63 - 1

/-- A value of an `i64`. -/
abbrev InI64 (n : Int) : Prop := i64Min ≤ n ∧ n ≤ i64Max

/-- `-` on `i64`. -/
def sub (a b : Int) : Checked Int := if InI64 (a - b) then .ok (a - b) else .error .overflow

/-- `/` on `i64`, which rounds towards zero. -/
def div (a b : Int) : Checked Int :=
  if b = 0 then .error .divideByZero
  else if InI64 (a.tdiv b) then .ok (a.tdiv b) else .error .overflow

/-- `i64::saturating_mul` -/
def saturatingMul (a b : Int) : Int := max i64Min (min i64Max (a * b))

/-- `i32::try_from` -/
def i32TryFrom (n : Int) : Option Int := if -2 ^ 31 ≤ n ∧ n < 2 ^ 31 then some n else none

/-- `u64::try_from` of an `i64`. -/
def u64TryFrom (n : Int) : Option Nat := if 0 ≤ n then some n.toNat else none

/-! ## Data -/

/-- The part of `RequestMetrics` that is read here; times are in milliseconds. -/
structure RequestMetrics where
  requestStart : Option Int := none
  connectStart : Option Int := none
  connectEnd : Option Int := none
  sendingEnd : Option Int := none
  responseStart : Option Int := none
  requestEnd : Option Int := none
  receivedByteCount : Int := 0
  deriving DecidableEq

/-- A URL, as its characters. -/
abbrev Url := List Char

/-- The metrics of a finished request, and the URL of its response if it got one. -/
structure RequestFinishedInfo where
  metrics : RequestMetrics
  response : Option Url
  deriving DecidableEq

/-- `EffectiveConnectionType` -/
inductive EffectiveConnectionType where
  | unknown
  | offline
  | slow2G
  | twoG
  | threeG
  | fourG
  deriving DecidableEq

/-- Round-trip times as durations in milliseconds. -/
structure NetworkQualityEstimates where
  httpRtt : Option Nat := none
  transportRtt : Option Nat := none
  downstreamThroughputKbps : Option Int := none
  effectiveConnectionType : EffectiveConnectionType := .unknown
  deriving DecidableEq

/-- `Sample` -/
structure Sample where
  httpRttMs : Option Int
  transportRttMs : Option Int
  throughputKbps : Option Int
  deriving DecidableEq

/-- A `tokio` watch channel: its value, and how many receivers there are. -/
structure Watch where
  value : NetworkQualityEstimates := {}
  receivers : Nat := 0
  deriving DecidableEq

/-- `watch::Sender::send` stores nothing when nobody can receive it. -/
def Watch.send (w : Watch) (value : NetworkQualityEstimates) : Watch :=
  if w.receivers = 0 then w else { w with value := value }

/-- One more receiver. -/
def Watch.subscribe (w : Watch) : Watch := { w with receivers := w.receivers + 1 }

/-- One receiver less. -/
def Watch.dropReceiver (w : Watch) : Watch := { w with receivers := w.receivers - 1 }

/-- `NqeState`, as `start` makes it. -/
structure NqeState where
  skipLocalhost : Bool := true
  samples : List Sample := []
  latest : NetworkQualityEstimates := {}
  updates : Watch := {}
  deriving DecidableEq

/-! ## Samples -/

/-- `str::contains` -/
def contains (s pattern : List Char) : Bool := decide (pattern <:+: s)

/-- `is_localhost` -/
def isLocalhost (info : RequestFinishedInfo) : Bool :=
  match info.response with
  | none => false
  | some url =>
    contains url "://127.0.0.1".toList || contains url "://localhost".toList ||
      contains url "://[::1]".toList

/-- The guarded difference of two times, if both are there. -/
def elapsed : Option Int → Option Int → Checked (Option Int)
  | some finish, some start => do
    if start ≤ finish then return some (← sub finish start)
    else return none
  | _, _ => return none

/-- `http_rtt_ms` -/
def httpRttMs (m : RequestMetrics) : Checked (Option Int) := do
  match ← elapsed m.responseStart m.sendingEnd with
  | some gap => return some gap
  | none => elapsed m.requestEnd m.requestStart

/-- `transport_rtt_ms` -/
def transportRttMs (m : RequestMetrics) : Checked (Option Int) :=
  elapsed m.connectEnd m.connectStart

/-- `throughput_kbps` -/
def throughputKbps (m : RequestMetrics) : Checked (Option Int) :=
  match m.requestEnd, m.requestStart with
  | some finish, some start => do
    if start < finish then
      let duration ← sub finish start
      if duration = 0 ∨ m.receivedByteCount ≤ 0 then return none
      else return i32TryFrom (← div (saturatingMul m.receivedByteCount 8) duration)
    else return none
  | _, _ => return none

/-- The sample that `observe` takes. -/
def sampleOf (m : RequestMetrics) : Checked Sample := do
  let http ← httpRttMs m
  let transport ← transportRttMs m
  let throughput ← throughputKbps m
  return { httpRttMs := http, transportRttMs := transport, throughputKbps := throughput }

/-! ## The window -/

/-- `SAMPLE_LIMIT` -/
def sampleLimit : Nat := 32

/-- `while samples.len() > SAMPLE_LIMIT { samples.pop_front(); }` -/
def popExcess : List Sample → List Sample
  | [] => []
  | sample :: samples =>
    if sampleLimit < (sample :: samples).length then popExcess samples else sample :: samples

/-- `median` -/
def median (values : List Int) : Checked (Option Int) :=
  if values = [] then return none
  else
    match (values.mergeSort)[values.length / 2]? with
    | some value => return some value
    | none => throw .outOfBounds

/-- `effective_connection_type` -/
def effectiveConnectionType (httpRttMs : Option Int) : EffectiveConnectionType :=
  match httpRttMs with
  | none => .unknown
  | some ms =>
    if 2010 ≤ ms then .slow2G
    else if 1400 ≤ ms then .twoG
    else if 270 ≤ ms then .threeG
    else .fourG

/-- `summarize` -/
def summarize (samples : List Sample) : Checked NetworkQualityEstimates := do
  let http ← median (samples.filterMap (·.httpRttMs))
  let transport ← median (samples.filterMap (·.transportRttMs))
  let throughput ← median (samples.filterMap (·.throughputKbps))
  return { httpRtt := http.bind u64TryFrom,
           transportRtt := transport.bind u64TryFrom,
           downstreamThroughputKbps := throughput.bind i32TryFrom,
           effectiveConnectionType := effectiveConnectionType http }

/-! ## The state -/

namespace NqeState

/-- `configure_for_testing` -/
def configureForTesting (s : NqeState) (useLocalhost : Bool) : NqeState :=
  { s with skipLocalhost := !useLocalhost }

/-- `estimates` -/
def estimates (s : NqeState) : NetworkQualityEstimates := s.latest

/-- `observe` returns at once. -/
def skips (s : NqeState) (info : RequestFinishedInfo) : Bool := s.skipLocalhost && isLocalhost info

/-- The lock section of `observe` on the samples, and what it computes. -/
def push (s : NqeState) (sample : Sample) : Checked (NqeState × NetworkQualityEstimates) := do
  let samples := popExcess (s.samples ++ [sample])
  return ({ s with samples := samples }, ← summarize samples)

/-- `*self.latest.lock() = estimates` -/
def store (s : NqeState) (estimates : NetworkQualityEstimates) : NqeState :=
  { s with latest := estimates }

/-- `self.updates.send(estimates)` -/
def send (s : NqeState) (estimates : NetworkQualityEstimates) : NqeState :=
  { s with updates := s.updates.send estimates }

/-- `observe` -/
def observe (s : NqeState) (info : RequestFinishedInfo) : Checked NqeState := do
  if s.skips info then return s
  else
    let sample ← sampleOf info.metrics
    let (s, estimates) ← s.push sample
    return (s.store estimates).send estimates

end NqeState

end TokioCronet.Nqe
