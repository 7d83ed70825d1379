import Mathlib.Data.List.Basic
import Mathlib.Tactic.SplitIfs
import TokioCronet.Request.State

/-!
# What an upload reads

The source of an upload, as `upload_read` and `upload_rewind` work on it: bytes with a cursor,
a reader, or a reader that can be rewound, the last two with a declared length or none. Cronet
makes one call at a time and waits for its completion, so what happens to a source is a list
of calls, and `upload_close` somewhere among them.

What the source has given since the last rewind is what `remaining` counts and what is
reported, but for the bytes that a read has taken and finds no room for.
-/

namespace TokioCronet.Request

variable {R : Type}

/-- `AsyncRead` and `AsyncSeek` of a reader with states `R`. A read fills its buffer at most. -/
structure Io (R : Type) where
  read : R → Nat → Except String Bytes × R
  /-- `seek(SeekFrom::Start(0))` -/
  seek : R → Except String Unit × R
  fits : ∀ {r limit bytes r'}, read r limit = (.ok bytes, r') → bytes.length ≤ limit

/-- `UploadBody` -/
inductive UploadBody (R : Type) where
  | bytes (body : Bytes)
  | reader (reader : R) (length : Option Nat)
  | rewindable (reader : R) (length : Option Nat)

/-- `UploadSource` -/
inductive UploadSource (R : Type) where
  | bytes (body : Bytes) (cursor : Nat)
  | reader (reader : R) (length remaining : Option Nat)
  | rewindable (reader : R) (length remaining : Option Nat)

/-- `upload_body_length` -/
def UploadBody.length : UploadBody R → Option Nat
  | .bytes body => some body.length
  | .reader _ length | .rewindable _ length => length

/-- The source of `UploadProvider::new`. -/
def UploadBody.source : UploadBody R → UploadSource R
  | .bytes body => .bytes body 0
  | .reader r length => .reader r length length
  | .rewindable r length => .rewindable r length length

/-- How much `read_upload_source` asks of the reader. -/
def readLimit (usizeMax : Nat) (remaining : Option Nat) (output : Nat) : Nat :=
  match remaining.filter (· ≤ usizeMax) with
  | some remaining => min remaining output
  | none => output

/-- `read_upload_source` -/
def readUploadSource (io : Io R) (usizeMax : Nat) (r : R) (length remaining : Option Nat)
    (output : Nat) : Result (Bytes × Bool) × R × Option Nat :=
  match io.read r (readLimit usizeMax remaining output) with
  | (.error message, r) => (.error (.upload message), r, remaining)
  | (.ok bytes, r) =>
    if bytes = [] ∧ remaining.any (· ≠ 0) then
      (.error (.upload "upload source ended before its declared content length"), r, remaining)
    else (.ok (bytes, length.isNone && bytes.isEmpty), r, remaining.map (· - bytes.length))

namespace UploadSource

/-- What `upload_read` does with the source. -/
def read (io : Io R) (usizeMax : Nat) (source : UploadSource R) (capacity : Nat) :
    Result (Bytes × Bool) × UploadSource R :=
  match source with
  | .bytes body cursor =>
    let count := min (body.length - cursor) capacity
    (.ok ((body.drop cursor).take count, false), .bytes body (cursor + count))
  | .reader r length remaining =>
    let (result, r, remaining) := readUploadSource io usizeMax r length remaining capacity
    (result, .reader r length remaining)
  | .rewindable r length remaining =>
    let (result, r, remaining) := readUploadSource io usizeMax r length remaining capacity
    (result, .rewindable r length remaining)

/-- What `upload_rewind` does with the source. -/
def rewind (io : Io R) : UploadSource R → Result Unit × UploadSource R
  | .bytes body _ => (.ok (), .bytes body 0)
  | .reader r length remaining =>
    (.error (.upload "upload source is not rewindable"), .reader r length remaining)
  | .rewindable r length remaining =>
    match io.seek r with
    | (.error message, r) => (.error (.upload message), .rewindable r length remaining)
    | (.ok (), r) => (.ok (), .rewindable r length length)

/-- A call that waits for the reader is cut off, and leaves it as it is then. -/
def left (source : UploadSource R) (r : R) : UploadSource R :=
  match source with
  | .bytes body cursor => .bytes body cursor
  | .reader _ length remaining => .reader r length remaining
  | .rewindable _ length remaining => .rewindable r length remaining

/-- The declared length. -/
def length : UploadSource R → Option Nat
  | .bytes body _ => some body.length
  | .reader _ length _ | .rewindable _ length _ => length

/-- How much of it is still to be given. -/
def remaining : UploadSource R → Option Nat
  | .bytes body cursor => some (body.length - cursor)
  | .reader _ _ remaining | .rewindable _ _ remaining => remaining

/-- What a read asks of the source. -/
def limit (usizeMax : Nat) (source : UploadSource R) (capacity : Nat) : Nat :=
  readLimit usizeMax source.remaining capacity

/-- What a task of `upload_read` or `upload_rewind` has of a call that is not cut off: how many
bytes were read and whether they are the last ones. -/
def answer (io : Io R) (usizeMax : Nat) (source : UploadSource R) : UploadOp → UploadResult
  | .read capacity =>
    (source.read io usizeMax capacity).1.map fun given => (given.1.length, given.2)
  | .rewind => (source.rewind io).1.map fun _ => (0, false)

/-- The source has nothing more to give. -/
def Ends (io : Io R) (limit : Nat) : UploadSource R → Prop
  | .bytes body cursor => body.length ≤ cursor
  | .reader r _ _ | .rewindable r _ _ => (io.read r limit).1 = .ok []

end UploadSource

/-! ## Calls -/

/-- What the calls work on. -/
structure Supply (R : Type) where
  source : UploadSource R
  closed : Bool

/-- What happens to the source of an upload. -/
inductive SupplyCall (R : Type) where
  /-- `upload_read` for a buffer of some size, with memory for its own buffer or not, and with
  something behind `Cronet_Buffer_GetData` or not. -/
  | read (capacity : Nat) (reserved data : Bool)
  | rewind
  | close
  /-- `upload_close` while a call waits for the reader. -/
  | cut (op : UploadOp) (reader : R)

/-- How a call is completed, with the error that is recorded, and what the source gave. -/
inductive Completion where
  | read (given : Bytes) (result : Except (Option Error) (Bytes × Bool))
  | rewound (result : Result Unit)
  deriving DecidableEq

/-- The completion of a call that is cut off. -/
def UploadOp.cutOff : UploadOp → Completion
  | .read _ => .read [] (.error (some .canceled))
  | .rewind => .rewound (.error .canceled)

namespace Supply

/-- What a call does. -/
def act (io : Io R) (usizeMax : Nat) (c : Supply R) : SupplyCall R → Supply R × List Completion
  | .read capacity reserved data =>
    if usizeMax < capacity then (c, [.read [] (.error none)])
    else if reserved = false then
      (c, [.read [] (.error (some (.allocationFailed "upload buffer")))])
    -- the select is biased: `closed` is looked at first
    else if c.closed then (c, [.read [] (.error (some .canceled))])
    else
      match c.source.read io usizeMax capacity with
      | (.error e, source) => ({ c with source := source }, [.read [] (.error (some e))])
      | (.ok (bytes, last), source) =>
        if bytes ≠ [] ∧ data = false then
          ({ c with source := source },
            [.read bytes (.error (some (.allocationFailed "upload buffer data")))])
        else ({ c with source := source }, [.read bytes (.ok (bytes, last))])
  | .rewind =>
    if c.closed then (c, [.rewound (.error .canceled)])
    else
      ({ c with source := (c.source.rewind io).2 }, [.rewound (c.source.rewind io).1])
  | .close => ({ c with closed := true }, [])
  | .cut op r =>
    -- after the close no call waits
    if c.closed then (c, []) else (⟨c.source.left r, true⟩, [op.cutOff])

/-- Calls one after another, and their completions. -/
def run (io : Io R) (usizeMax : Nat) : Supply R → List (SupplyCall R) → Supply R × List Completion
  | c, [] => (c, [])
  | c, a :: l =>
    (((c.act io usizeMax a).1.run io usizeMax l).1,
      (c.act io usizeMax a).2 ++ ((c.act io usizeMax a).1.run io usizeMax l).2)

end Supply

/-- A provider that was just created. -/
def UploadBody.supply (body : UploadBody R) : Supply R := ⟨body.source, false⟩

/-! ## What is reported -/

namespace Completion

/-- What the source gave. -/
def given : Completion → Bytes
  | .read given _ => given
  | .rewound _ => []

/-- What was reported to Cronet. -/
def reported : Completion → Bytes
  | .read _ (.ok (bytes, _)) => bytes
  | _ => []

/-- The source gave bytes, and there was nowhere to put them. -/
def Loses (n : Completion) : Prop :=
  ∃ given, n = .read given (.error (some (.allocationFailed "upload buffer data")))

end Completion

/-- The completions since the last rewind that succeeded. -/
def sinceRewind (log : List Completion) : List Completion :=
  log.foldl (fun since n => if n = .rewound (.ok ()) then [] else since ++ [n]) []

/-- What the source has given. -/
def givenBytes (log : List Completion) : Bytes := log.flatMap Completion.given

/-- What was reported to Cronet. -/
def reportedBytes (log : List Completion) : Bytes := log.flatMap Completion.reported

/-- The bytes from a position on. -/
def slice (content : Nat → UInt8) (position n : Nat) : Bytes :=
  (List.range n).map fun i => content (position + i)

/-- The reader has the same bytes at the same position, whenever it is there; it is there until
a read or a seek succeeds. -/
structure Repeats (io : Io R) (content : Nat → UInt8) (position : R → Nat) : Prop where
  /-- A read gives the bytes from its position on, and moves on. -/
  read : ∀ {r limit bytes r'}, io.read r limit = (.ok bytes, r') →
    bytes = slice content (position r) bytes.length ∧ position r' = position r + bytes.length
  /-- A read that fails leaves the reader where it is. -/
  readFails : ∀ {r limit message r'}, io.read r limit = (.error message, r') →
    position r' = position r
  /-- A seek goes to the origin. -/
  seek : ∀ {r r'}, io.seek r = (.ok (), r') → position r' = 0
  /-- A seek that fails leaves the reader where it is. -/
  seekFails : ∀ {r message r'}, io.seek r = (.error message, r') → position r' = position r

/-- The bytes of a source, from its origin. -/
def UploadBody.Has (io : Io R) (content : Nat → UInt8) (position : R → Nat) :
    UploadBody R → Prop
  | .bytes body => ∀ i, body[i]? = if i < body.length then some (content i) else none
  | .reader r _ | .rewindable r _ => position r = 0 ∧ Repeats io content position

/-! ## One read -/

variable {io : Io R} {usizeMax capacity : Nat} {s s' : UploadSource R} {body : UploadBody R}
  {bytes : Bytes} {last : Bool} {e : Error} {content : Nat → UInt8} {position : R → Nat}

theorem readLimit_le (remaining : Option Nat) (output : Nat) (h : output ≤ usizeMax) :
    readLimit usizeMax remaining output ≤ output ∧
      ∀ k ∈ remaining, readLimit usizeMax remaining output ≤ k := by
  cases remaining with
  | none => exact ⟨Nat.le_refl _, fun _ => nofun⟩
  | some k =>
    rw [readLimit, Option.filter_some]
    by_cases hk : k ≤ usizeMax
    · rw [if_pos (decide_eq_true hk)]
      refine ⟨Nat.min_le_right _ _, fun k' hk' => ?_⟩
      obtain rfl := Option.mem_some.mp hk'
      exact Nat.min_le_left _ _
    · rw [if_neg (by rw [decide_eq_true_iff]; exact hk)]
      refine ⟨Nat.le_refl _, fun k' hk' => ?_⟩
      obtain rfl := Option.mem_some.mp hk'
      show output ≤ k
      omega

theorem remains_iff (remaining : Option Nat) :
    remaining.any (· ≠ 0) = true ↔ ∃ k ∈ remaining, k ≠ 0 := by
  cases remaining with
  | none => exact ⟨nofun, fun ⟨k, hk, _⟩ => nomatch hk⟩
  | some k =>
    rw [Option.any_some, decide_eq_true_iff]
    refine ⟨fun hne => ⟨k, rfl, hne⟩, fun ⟨k', hk', hne⟩ => ?_⟩
    obtain rfl := Option.mem_some.mp hk'
    exact hne

/-- **What `read_upload_source` does.** -/
theorem readUploadSource_cases {r r' : R} {length remaining remaining' : Option Nat}
    {output : Nat} {result : Result (Bytes × Bool)}
    (h : readUploadSource io usizeMax r length remaining output = (result, r', remaining')) :
    (∃ message, io.read r (readLimit usizeMax remaining output) = (.error message, r') ∧
      result = .error (.upload message) ∧ remaining' = remaining) ∨
    (io.read r (readLimit usizeMax remaining output) = (.ok [], r') ∧
      (∃ k ∈ remaining, k ≠ 0) ∧ (∃ message, result = .error (.upload message)) ∧
      remaining' = remaining) ∨
    ∃ bytes, io.read r (readLimit usizeMax remaining output) = (.ok bytes, r') ∧
      (bytes = [] → ∀ k ∈ remaining, k = 0) ∧
      result = .ok (bytes, length.isNone && bytes.isEmpty) ∧
      remaining' = remaining.map (· - bytes.length) := by
  unfold readUploadSource at h
  split at h
  · rename_i message r₁ hread
    cases h
    exact .inl ⟨message, hread, rfl, rfl⟩
  · rename_i bytes r₁ hread
    split at h
    · rename_i hends
      obtain ⟨rfl, hany⟩ := hends
      cases h
      exact .inr (.inl ⟨hread, (remains_iff remaining).mp hany, ⟨_, rfl⟩, rfl⟩)
    · rename_i hmore
      cases h
      refine .inr (.inr ⟨bytes, hread, fun hnil k hk => ?_, rfl, rfl⟩)
      by_contra hne
      exact hmore ⟨hnil, (remains_iff remaining).mpr ⟨k, hk, hne⟩⟩

/-- **An answer that fails** is an I/O error of the reader, or says what the source cannot do. -/
theorem answer_error {op : UploadOp} (h : s.answer io usizeMax op = .error e) :
    ∃ message, e = .upload message := by
  cases op with
  | read capacity =>
    have hreader : ∀ {r : R} {length remaining : Option Nat},
        (readUploadSource io usizeMax r length remaining capacity).1 = .error e →
          ∃ message, e = .upload message := by
      intro r length remaining hread
      rcases readUploadSource_cases rfl with ⟨message, -, hresult, -⟩ |
        ⟨-, -, ⟨message, hresult⟩, -⟩ | ⟨bytes, -, -, hresult, -⟩
      · exact ⟨message, Except.error.inj (hread.symm.trans hresult)⟩
      · exact ⟨message, Except.error.inj (hread.symm.trans hresult)⟩
      · cases hread.symm.trans hresult
    have hfails : (s.read io usizeMax capacity).1 = .error e := by
      rw [UploadSource.answer] at h
      cases hread : (s.read io usizeMax capacity).1 with
      | error x =>
        rw [hread] at h
        exact congrArg Except.error (Except.error.inj h)
      | ok value =>
        rw [hread] at h
        cases h
    cases s with
    | bytes body cursor => cases hfails
    | reader r length remaining => exact hreader hfails
    | rewindable r length remaining => exact hreader hfails
  | rewind =>
    cases s with
    | bytes body cursor => cases h
    | reader r length remaining =>
      cases h
      exact ⟨_, rfl⟩
    | rewindable r length remaining =>
      rw [UploadSource.answer, UploadSource.rewind] at h
      split at h
      · cases h
        exact ⟨_, rfl⟩
      · cases h

/-- A reader that fails with some message is a source that answers so. -/
theorem answers_error (op : UploadOp) (message : String) :
    ∃ (io : Io Unit) (usizeMax : Nat) (s : UploadSource Unit),
      s.answer io usizeMax op = .error (.upload message) := by
  let io : Io Unit := ⟨fun r _ => (.error message, r), fun r => (.error message, r), nofun⟩
  refine ⟨io, 0, .rewindable () none none, ?_⟩
  cases op with
  | read capacity => rfl
  | rewind => rfl

/-- The source of a body stands `n` bytes behind its origin. -/
def UploadSource.At (position : R → Nat) : UploadBody R → UploadSource R → Nat → Prop
  | .bytes body, .bytes body' cursor, n => body' = body ∧ cursor = n ∧ n ≤ body.length
  | .reader _ _, .reader r _ _, n | .rewindable _ _, .rewindable r _ _, n => position r = n
  | _, _, _ => False

theorem slice_add (content : Nat → UInt8) (n k : Nat) :
    slice content 0 (n + k) = slice content 0 n ++ slice content n k := by
  unfold slice
  rw [List.range_add, List.map_append, List.map_map]
  congr 1
  refine List.map_congr_left fun i _ => ?_
  show content (0 + (n + i)) = content (n + i)
  rw [Nat.zero_add]

/-- A call has left the source where it was. -/
structure Kept (io : Io R) (s s' : UploadSource R) : Prop where
  /-- The declared length stays. -/
  length : s'.length = s.length
  /-- What remains stays. -/
  remaining : s'.remaining = s.remaining
  /-- The source stands where it stood. -/
  stands : ∀ {content position body n}, UploadBody.Has io content position body →
    s.At position body n → s'.At position body n

/-- A call has taken bytes from the source. -/
structure Gives (io : Io R) (limit : Nat) (s : UploadSource R) (bytes : Bytes) (last : Bool)
    (s' : UploadSource R) : Prop where
  /-- The declared length stays. -/
  length : s'.length = s.length
  /-- What remains is less by the bytes. -/
  remaining : s'.remaining = s.remaining.map (· - bytes.length)
  /-- No more is taken than remains. -/
  within : ∀ k ∈ s.remaining, bytes.length ≤ k
  /-- A source that ends gives nothing that was declared. -/
  ended : s.Ends io limit → ∀ k ∈ s.remaining, k = 0
  /-- The last chunk is that of a source without a length. -/
  last : last = true → s.length = none ∧ bytes = [] ∧ s.Ends io limit
  /-- The source has moved on by the bytes, which are its own. -/
  stands : ∀ {content position body n}, UploadBody.Has io content position body →
    s.At position body n → s'.At position body (n + bytes.length) ∧
      bytes = slice content n bytes.length

theorem slice_bytes {body : Bytes} (h : ∀ i, body[i]? = if i < body.length then some (content i)
    else none) {n k : Nat} (hk : n + k ≤ body.length) :
    (body.drop n).take k = slice content n k := by
  refine List.ext_getElem? fun i => ?_
  rw [slice, List.getElem?_map, List.getElem?_take]
  by_cases hi : i < k
  · rw [if_pos hi, List.getElem?_drop, h, if_pos (by omega), List.getElem?_range hi]
    rfl
  · rw [if_neg hi, List.getElem?_eq_none (by rw [List.length_range]; omega)]
    rfl

/-- **What a read does with the source.** -/
theorem read_cases {result : Result (Bytes × Bool)} (hcapacity : capacity ≤ usizeMax)
    (h : s.read io usizeMax capacity = (result, s')) :
    (∃ message, result = .error (.upload message) ∧ Kept io s s') ∨
      ∃ bytes last, result = .ok (bytes, last) ∧
        Gives io (s.limit usizeMax capacity) s bytes last s' := by
  cases s with
  | bytes body cursor =>
    cases h
    have hlength : ((body.drop cursor).take (min (body.length - cursor) capacity)).length =
        min (body.length - cursor) capacity := by
      rw [List.length_take, List.length_drop]
      omega
    refine .inr ⟨_, _, rfl, rfl, ?_, ?_, ?_, nofun, ?_⟩
    · rw [hlength]
      show some (body.length - (cursor + _)) = some (body.length - cursor - _)
      rw [Nat.sub_add_eq]
    · intro k hk
      obtain rfl := Option.mem_some.mp hk
      omega
    · intro hends k hk
      obtain rfl := Option.mem_some.mp hk
      exact Nat.sub_eq_zero_of_le hends
    · intro content position body' n hhas hat
      cases body' with
      | bytes body' =>
        obtain ⟨rfl, rfl, hn⟩ := hat
        rw [hlength]
        exact ⟨⟨rfl, rfl, by omega⟩, slice_bytes hhas (by omega)⟩
      | reader r length => exact hat.elim
      | rewindable r length => exact hat.elim
  | reader r length remaining | rewindable r length remaining =>
    rw [UploadSource.read] at h
    rcases hread : readUploadSource io usizeMax r length remaining capacity with
      ⟨result', r', remaining'⟩
    rw [hread] at h
    cases h
    rcases readUploadSource_cases hread with ⟨message, hio, rfl, rfl⟩ |
      ⟨hio, hmore, ⟨message, rfl⟩, rfl⟩ | ⟨bytes, hio, hnil, rfl, rfl⟩
    · refine .inl ⟨message, rfl, rfl, rfl, ?_⟩
      intro content position body n hhas hat
      cases body <;> first
        | exact hat.elim
        | exact (hhas.2.readFails hio).trans hat
    · refine .inl ⟨message, rfl, rfl, rfl, ?_⟩
      intro content position body n hhas hat
      cases body <;> first
        | exact hat.elim
        | exact (hhas.2.read hio).2.trans hat
    · have hle := io.fits hio
      have hlimit := readLimit_le remaining capacity hcapacity
      refine .inr ⟨bytes, _, rfl, rfl, rfl, ?_, fun hends => hnil ?_, ?_, ?_⟩
      · exact fun k hk => Nat.le_trans hle (hlimit.2 k hk)
      · exact Except.ok.inj ((congrArg Prod.fst hio).symm.trans hends)
      · intro hlast
        rw [Bool.and_eq_true, Option.isNone_iff_eq_none, List.isEmpty_iff] at hlast
        refine ⟨hlast.1, hlast.2, ?_⟩
        show (io.read r _).1 = _
        rw [← hlast.2]
        exact congrArg Prod.fst hio
      · intro content position body n hhas hat
        cases body <;> first
          | exact hat.elim
          | (obtain ⟨hbytes, hposition⟩ := hhas.2.read hio
             rw [show position r = n from hat] at hbytes hposition
             exact ⟨hposition, hbytes⟩)

/-- **What a rewind does with the source.** -/
theorem rewind_cases {result : Result Unit} (h : s.rewind io = (result, s')) :
    ((∃ message, result = .error (.upload message)) ∧ Kept io s s') ∨
      result = .ok () ∧ s'.length = s.length ∧ s'.remaining = s.length ∧
        ∀ {content position body n}, UploadBody.Has io content position body →
          s.At position body n → s'.At position body 0 := by
  cases s with
  | bytes body cursor =>
    cases h
    refine .inr ⟨rfl, rfl, rfl, ?_⟩
    intro content position body' n hhas hat
    cases body' with
    | bytes body' => exact ⟨hat.1, rfl, Nat.zero_le _⟩
    | reader r length => exact hat.elim
    | rewindable r length => exact hat.elim
  | reader r length remaining =>
    cases h
    exact .inl ⟨⟨_, rfl⟩, rfl, rfl, fun _ hat => hat⟩
  | rewindable r length remaining =>
    rw [UploadSource.rewind] at h
    split at h
    · rename_i message r' hseek
      cases h
      refine .inl ⟨⟨message, rfl⟩, rfl, rfl, ?_⟩
      intro content position body n hhas hat
      cases body <;> first
        | exact hat.elim
        | exact (hhas.2.seekFails hseek).trans hat
    · rename_i r' hseek
      cases h
      refine .inr ⟨rfl, rfl, rfl, ?_⟩
      intro content position body n hhas hat
      cases body <;> first
        | exact hat.elim
        | exact hhas.2.seek hseek

/-! ## A run -/

variable {c : Supply R} {log : List Completion} {n : Completion}

theorem sinceRewind_snoc (hn : n ≠ .rewound (.ok ())) :
    sinceRewind (log ++ [n]) = sinceRewind log ++ [n] := by
  rw [sinceRewind, List.foldl_append, List.foldl_cons, List.foldl_nil, if_neg hn]
  rfl

theorem sinceRewind_rewound : sinceRewind (log ++ [.rewound (.ok ())]) = [] := by
  rw [sinceRewind, List.foldl_append, List.foldl_cons, List.foldl_nil, if_pos rfl]

theorem givenBytes_snoc (log : List Completion) (n : Completion) :
    givenBytes (log ++ [n]) = givenBytes log ++ n.given := by
  rw [givenBytes, List.flatMap_append, List.flatMap_singleton]
  rfl

theorem reportedBytes_snoc (log : List Completion) (n : Completion) :
    reportedBytes (log ++ [n]) = reportedBytes log ++ n.reported := by
  rw [reportedBytes, List.flatMap_append, List.flatMap_singleton]
  rfl

/-- **What holds of a source and its completions.** -/
structure SupplyInv (io : Io R) (body : UploadBody R) (c : Supply R) (log : List Completion) :
    Prop where
  /-- The declared length stays. -/
  length : c.source.length = body.length
  /-- What remains is the rest of it. -/
  remaining : c.source.remaining =
    body.length.map (· - (givenBytes (sinceRewind log)).length)
  /-- No more is given than was declared. -/
  within : ∀ k ∈ body.length, (givenBytes (sinceRewind log)).length ≤ k
  /-- What is given is reported, if it has found room. -/
  reported : (∀ n ∈ sinceRewind log, ¬ n.Loses) →
    reportedBytes (sinceRewind log) = givenBytes (sinceRewind log)
  /-- What is given is what the source has, from its origin on. -/
  content : ∀ {content position}, body.Has io content position →
    givenBytes (sinceRewind log) = slice content 0 (givenBytes (sinceRewind log)).length
  /-- After the close nothing is read. -/
  stands : ∀ {content position}, body.Has io content position → c.closed = false →
    c.source.At position body (givenBytes (sinceRewind log)).length

theorem supplyInv_init (io : Io R) (body : UploadBody R) : SupplyInv io body body.supply [] where
  length := by cases body <;> rfl
  remaining := by
    cases body with
    | bytes body => rfl
    | reader r length | rewindable r length => exact Option.map_id'.symm
  within _ _ := Nat.zero_le _
  reported _ := rfl
  content _ := rfl
  stands := by
    intro content position hhas _
    cases body with
    | bytes body => exact ⟨rfl, rfl, Nat.zero_le _⟩
    | reader r length | rewindable r length => exact hhas.1

/-- A call that takes nothing. -/
theorem SupplyInv.failed {c' : Supply R} (hi : SupplyInv io body c log)
    (hkept : c'.closed = false → Kept io c.source c'.source)
    (hlength : c'.source.length = c.source.length)
    (hremaining : c'.source.remaining = c.source.remaining)
    (hclosed : c'.closed = false → c.closed = false) (hn : n ≠ .rewound (.ok ()))
    (hgiven : n.given = []) (hreported : n.reported = []) :
    SupplyInv io body c' (log ++ [n]) := by
  have hsame : givenBytes (sinceRewind (log ++ [n])) = givenBytes (sinceRewind log) := by
    rw [sinceRewind_snoc hn, givenBytes_snoc, hgiven, List.append_nil]
  refine ⟨hlength.trans hi.length, ?_, ?_, fun hlost => ?_, ?_, fun hhas hopen => ?_⟩
  · rw [hremaining, hsame]
    exact hi.remaining
  · rw [hsame]
    exact hi.within
  · rw [hsame, sinceRewind_snoc hn, reportedBytes_snoc, hreported, List.append_nil]
    refine hi.reported fun m hm => hlost m ?_
    rw [sinceRewind_snoc hn]
    exact List.mem_append_left _ hm
  · rw [hsame]
    exact hi.content
  · rw [hsame]
    exact (hkept hopen).stands hhas (hi.stands hhas (hclosed hopen))

/-- A read that takes bytes; they are reported, or lost. -/
theorem SupplyInv.gave {limit : Nat} {source : UploadSource R}
    {result : Except (Option Error) (Bytes × Bool)} (hi : SupplyInv io body c log)
    (hopen : c.closed = false) (hgives : Gives io limit c.source bytes last source)
    (hresult : result = .ok (bytes, last) ∨ (Completion.read bytes result).Loses) :
    SupplyInv io body { c with source := source } (log ++ [.read bytes result]) := by
  have hsince : sinceRewind (log ++ [.read bytes result]) =
      sinceRewind log ++ [.read bytes result] := sinceRewind_snoc nofun
  have hmore : givenBytes (sinceRewind (log ++ [.read bytes result])) =
      givenBytes (sinceRewind log) ++ bytes := by
    rw [hsince, givenBytes_snoc]
    rfl
  have hlength : (givenBytes (sinceRewind (log ++ [.read bytes result]))).length =
      (givenBytes (sinceRewind log)).length + bytes.length := by
    rw [hmore, List.length_append]
  have hwithin : ∀ k ∈ body.length, (givenBytes (sinceRewind log)).length + bytes.length ≤ k := by
    intro k hk
    have hbefore := hi.within k hk
    have hremains := hgives.within (k - (givenBytes (sinceRewind log)).length) (by
      rw [hi.remaining, Option.mem_def.mp hk]
      rfl)
    omega
  refine ⟨hgives.length.trans hi.length, ?_, ?_, fun hlost => ?_, fun hhas => ?_, fun hhas _ => ?_⟩
  · rw [hlength]
    refine hgives.remaining.trans ?_
    rw [hi.remaining, Option.map_map]
    exact Option.map_congr fun k hk => (Nat.sub_add_eq k _ _).symm
  · rw [hlength]
    exact hwithin
  · rw [hmore, hsince, reportedBytes_snoc]
    rw [hsince, List.forall_mem_append] at hlost
    rcases hresult with rfl | hloses
    · rw [hi.reported hlost.1]
      rfl
    · exact absurd hloses (hlost.2 _ (List.mem_singleton_self _))
  · rw [hlength, hmore, slice_add, ← hi.content hhas]
    exact congrArg _ (hgives.stands hhas (hi.stands hhas hopen)).2
  · rw [hlength]
    exact (hgives.stands hhas (hi.stands hhas hopen)).1

theorem left_length (s : UploadSource R) (r : R) : (s.left r).length = s.length := by
  cases s <;> rfl

theorem left_remaining (s : UploadSource R) (r : R) : (s.left r).remaining = s.remaining := by
  cases s <;> rfl

theorem kept_refl (io : Io R) (s : UploadSource R) : Kept io s s := ⟨rfl, rfl, fun _ hat => hat⟩

/-- **One call.** -/
theorem supplyInv_act (hi : SupplyInv io body c log) (a : SupplyCall R) :
    SupplyInv io body (c.act io usizeMax a).1 (log ++ (c.act io usizeMax a).2) := by
  have hfailed : ∀ e, SupplyInv io body c (log ++ [.read [] (.error e)]) :=
    fun e => hi.failed (fun _ => kept_refl io _) rfl rfl id nofun rfl rfl
  cases a with
  | read capacity reserved data =>
    rw [Supply.act]
    by_cases hcapacity : usizeMax < capacity
    · rw [if_pos hcapacity]
      exact hfailed _
    rw [if_neg hcapacity]
    by_cases hreserved : reserved = false
    · rw [if_pos hreserved]
      exact hfailed _
    rw [if_neg hreserved]
    by_cases hclosed : c.closed = true
    · rw [if_pos hclosed]
      exact hfailed _
    rw [if_neg hclosed]
    rw [Bool.not_eq_true] at hclosed
    rcases hread : c.source.read io usizeMax capacity with ⟨result, source⟩
    rcases read_cases (Nat.not_lt.mp hcapacity) hread with ⟨message, rfl, hkept⟩ |
      ⟨bytes, last, rfl, hgives⟩
    · exact hi.failed (fun _ => hkept) hkept.length hkept.remaining id nofun rfl rfl
    · dsimp only
      split
      · exact hi.gave hclosed hgives (.inr ⟨bytes, rfl⟩)
      · exact hi.gave hclosed hgives (.inl rfl)
  | rewind =>
    rw [Supply.act]
    by_cases hclosed : c.closed = true
    · rw [if_pos hclosed]
      exact hi.failed (fun _ => kept_refl io _) rfl rfl id nofun rfl rfl
    rw [if_neg hclosed]
    rw [Bool.not_eq_true] at hclosed
    rcases hrewind : c.source.rewind io with ⟨result, source⟩
    rcases rewind_cases hrewind with ⟨⟨message, rfl⟩, hkept⟩ | ⟨rfl, hlength, hremaining, hstands⟩
    · exact hi.failed (fun _ => hkept) hkept.length hkept.remaining id nofun rfl rfl
    · refine ⟨hlength.trans hi.length, ?_, ?_, ?_, ?_, ?_⟩
      all_goals dsimp only; rw [sinceRewind_rewound]
      · exact (hremaining.trans hi.length).trans Option.map_id'.symm
      · exact fun _ _ => Nat.zero_le _
      · exact fun _ => rfl
      · exact fun _ => rfl
      · exact fun hhas _ => hstands hhas (hi.stands hhas hclosed)
  | close =>
    rw [Supply.act, List.append_nil]
    exact ⟨hi.length, hi.remaining, hi.within, hi.reported, hi.content, fun _ => nofun⟩
  | cut op r =>
    rw [Supply.act]
    by_cases hclosed : c.closed = true
    · rw [if_pos hclosed, List.append_nil]
      exact hi
    rw [if_neg hclosed]
    refine hi.failed nofun (left_length _ r) (left_remaining _ r) nofun ?_ ?_ ?_ <;>
      cases op <;> first | rfl | nofun

theorem supplyInv_run (l : List (SupplyCall R)) : ∀ {c : Supply R} {log : List Completion},
    SupplyInv io body c log →
    SupplyInv io body (c.run io usizeMax l).1 (log ++ (c.run io usizeMax l).2) := by
  induction l with
  | nil =>
    intro c log hi
    rw [Supply.run, List.append_nil]
    exact hi
  | cons a l ih =>
    intro c log hi
    rw [Supply.run, ← List.append_assoc]
    exact ih (supplyInv_act hi a)

/-! ## What Cronet is told -/

/-- The read is for a buffer that is not empty. -/
def SupplyCall.HasRoom : SupplyCall R → Prop
  | .read capacity _ _ => 0 < capacity
  | _ => True

/-- What is reported is what the source has, from its origin on, and what remains is the rest. -/
structure Delivers (io : Io R) (body : UploadBody R) (c : Supply R) (log : List Completion) :
    Prop where
  /-- All that was given is reported. -/
  given : reportedBytes log = givenBytes log
  /-- It is what the source has, from its origin on. -/
  origin : ∀ {content position}, body.Has io content position →
    reportedBytes log = slice content 0 (reportedBytes log).length
  /-- It is no more than was declared. -/
  within : ∀ k ∈ body.length, (reportedBytes log).length ≤ k
  /-- What remains is the rest of it. -/
  remaining : c.source.remaining = body.length.map (· - (reportedBytes log).length)

/-- What a call tells of the source. -/
structure Honest (io : Io R) (usizeMax : Nat) (c : Supply R) (a : SupplyCall R) : Prop where
  /-- The source ends too early, and a read comes to it. -/
  ended : ∀ {capacity data k}, a = .read capacity true data → capacity ≤ usizeMax →
    c.closed = false → c.source.remaining = some k → k ≠ 0 →
    c.source.Ends io (c.source.limit usizeMax capacity) →
    ∃ message, (c.act io usizeMax a).2 = [.read [] (.error (some (.upload message)))]
  /-- The last chunk is empty, of a source without a length that has ended. -/
  last : ∀ {given bytes}, .read given (.ok (bytes, true)) ∈ (c.act io usizeMax a).2 →
    c.source.length = none ∧ bytes = [] ∧ ∃ limit, 0 < limit ∧ c.source.Ends io limit
  /-- A rewind that fails changes nothing. -/
  rewind : ∀ {e}, .rewound (.error e) ∈ (c.act io usizeMax a).2 →
    (c.act io usizeMax a).1.source.remaining = c.source.remaining

theorem act_read {data : Bool} (hcapacity : capacity ≤ usizeMax) (hopen : c.closed = false) :
    c.act io usizeMax (.read capacity true data) =
      match c.source.read io usizeMax capacity with
      | (.error e, source) => ({ c with source := source }, [.read [] (.error (some e))])
      | (.ok (bytes, last), source) =>
        if bytes ≠ [] ∧ data = false then
          ({ c with source := source },
            [.read bytes (.error (some (.allocationFailed "upload buffer data")))])
        else ({ c with source := source }, [.read bytes (.ok (bytes, last))]) := by
  rw [Supply.act, if_neg (Nat.not_lt.mpr hcapacity), if_neg nofun,
    if_neg (by rw [hopen]; exact Bool.false_ne_true)]

theorem honest_ended {data : Bool} {k : Nat} (hcapacity : capacity ≤ usizeMax)
    (hopen : c.closed = false) (hremaining : c.source.remaining = some k) (hk : k ≠ 0)
    (hends : c.source.Ends io (c.source.limit usizeMax capacity)) :
    ∃ message, (c.act io usizeMax (.read capacity true data)).2 =
      [.read [] (.error (some (.upload message)))] := by
  rw [act_read hcapacity hopen]
  rcases hread : c.source.read io usizeMax capacity with ⟨result, source⟩
  rcases read_cases hcapacity hread with ⟨message, rfl, -⟩ | ⟨bytes, last, rfl, hgives⟩
  · exact ⟨message, rfl⟩
  · exact absurd (hgives.ended hends k hremaining) hk

theorem honest_last {reserved data : Bool} {given : Bytes} (hi : SupplyInv io body c log)
    (hroom : 0 < capacity)
    (h : .read given (.ok (bytes, true)) ∈ (c.act io usizeMax (.read capacity reserved data)).2) :
    c.source.length = none ∧ bytes = [] ∧ ∃ limit, 0 < limit ∧ c.source.Ends io limit := by
  rw [Supply.act] at h
  split_ifs at h with hcapacity hreserved hclosed
  · cases List.mem_singleton.mp h
  · cases List.mem_singleton.mp h
  · cases List.mem_singleton.mp h
  rcases hread : c.source.read io usizeMax capacity with ⟨result, source⟩
  rw [hread] at h
  rcases read_cases (Nat.not_lt.mp hcapacity) hread with ⟨message, rfl, -⟩ |
    ⟨bytes', last, rfl, hgives⟩
  · cases List.mem_singleton.mp h
  · dsimp only at h
    split at h
    · cases List.mem_singleton.mp h
    · cases List.mem_singleton.mp h
      obtain ⟨hlength, hnil, hends⟩ := hgives.last rfl
      refine ⟨hlength, hnil, _, ?_, hends⟩
      -- nothing is declared, so all of the buffer is asked for
      have hremaining : c.source.remaining = none := by
        rw [hi.remaining, ← hi.length, hlength]
        rfl
      rw [UploadSource.limit, hremaining]
      exact hroom

theorem honest_rewind {a : SupplyCall R}
    (h : .rewound (.error e) ∈ (c.act io usizeMax a).2) :
    (c.act io usizeMax a).1.source.remaining = c.source.remaining := by
  cases a with
  | read capacity reserved data =>
    rw [Supply.act] at h
    split_ifs at h
    · cases List.mem_singleton.mp h
    · cases List.mem_singleton.mp h
    · cases List.mem_singleton.mp h
    · split at h
      · cases List.mem_singleton.mp h
      · split at h <;> cases List.mem_singleton.mp h
  | rewind =>
    rw [Supply.act] at h ⊢
    by_cases hclosed : c.closed = true
    · rw [if_pos hclosed]
    · rw [if_neg hclosed] at h ⊢
      rcases hrewind : c.source.rewind io with ⟨result, source⟩
      rw [hrewind] at h
      rcases rewind_cases hrewind with ⟨-, hkept⟩ | ⟨rfl, -, -, -⟩
      · exact hkept.remaining
      · cases List.mem_singleton.mp h
  | close => cases h
  | cut op r =>
    rw [Supply.act]
    by_cases hclosed : c.closed = true
    · rw [if_pos hclosed]
    · rw [if_neg hclosed]
      exact left_remaining _ r

theorem SupplyInv.honest (hi : SupplyInv io body c log) {a : SupplyCall R} (ha : a.HasRoom) :
    Honest io usizeMax c a where
  ended := by
    rintro capacity data k rfl hcapacity hopen hremaining hk hends
    exact honest_ended hcapacity hopen hremaining hk hends
  last := by
    intro given bytes h
    cases a with
    | read capacity reserved data => exact honest_last hi ha h
    | rewind =>
      rw [Supply.act] at h
      split_ifs at h <;> cases List.mem_singleton.mp h
    | close => cases h
    | cut op r =>
      rw [Supply.act] at h
      split_ifs at h
      · cases h
      · cases op <;> cases List.mem_singleton.mp h
  rewind := honest_rewind

theorem SupplyInv.delivers (hi : SupplyInv io body c log)
    (hkept : ∀ n ∈ sinceRewind log, ¬ n.Loses) : Delivers io body c (sinceRewind log) := by
  have hsame := hi.reported hkept
  refine ⟨hsame, ?_, ?_, ?_⟩ <;> rw [hsame]
  · exact hi.content
  · exact hi.within
  · exact hi.remaining

/-- **What an upload delivers.** Whatever the calls, what is reported since the last rewind that
succeeded is what the source has from its origin on, no more than what was declared, and the
rest is what remains, as long as no read found its buffer without data; and every further call
is honest. -/
theorem upload_delivers (io : Io R) (usizeMax : Nat) (body : UploadBody R)
    (l : List (SupplyCall R)) (a : SupplyCall R) (ha : a.HasRoom) :
    ((∀ n ∈ sinceRewind (body.supply.run io usizeMax l).2, ¬ n.Loses) →
      Delivers io body (body.supply.run io usizeMax l).1
        (sinceRewind (body.supply.run io usizeMax l).2)) ∧
    Honest io usizeMax (body.supply.run io usizeMax l).1 a := by
  have hi : SupplyInv io body (body.supply.run io usizeMax l).1
      ([] ++ (body.supply.run io usizeMax l).2) := supplyInv_run l (supplyInv_init io body)
  rw [List.nil_append] at hi
  exact ⟨hi.delivers, hi.honest ha⟩

/-! ## A cursor -/

/-- `std::io::Cursor`; its state is its position. -/
def cursorIo (body : Bytes) : Io Nat where
  read position limit :=
    (.ok ((body.drop position).take limit), position + ((body.drop position).take limit).length)
  seek _ := (.ok (), 0)
  fits := by
    intro r limit bytes r' h
    cases h
    exact List.length_take_le _ _

theorem getElem?_getD (body : Bytes) (i : Nat) :
    body[i]? = if i < body.length then some (body.getD i 0) else none := by
  by_cases hi : i < body.length
  · rw [if_pos hi, List.getD_eq_getElem?_getD, List.getElem?_eq_getElem hi]
    rfl
  · rw [if_neg hi, List.getElem?_eq_none (Nat.not_lt.mp hi)]

theorem cursorIo_repeats (body : Bytes) :
    Repeats (cursorIo body) (fun i => body.getD i 0) id where
  read := by
    intro r limit bytes r' h
    cases h
    refine ⟨?_, rfl⟩
    refine List.ext_getElem? fun i => ?_
    rw [slice, List.getElem?_map]
    by_cases hi : i < ((body.drop r).take limit).length
    · have hlimit : i < limit := Nat.lt_of_lt_of_le hi (List.length_take_le _ _)
      have hbody : r + i < body.length := by
        rw [List.length_take, List.length_drop] at hi
        omega
      rw [List.getElem?_range hi, List.getElem?_take_of_lt hlimit, List.getElem?_drop,
        getElem?_getD, if_pos hbody]
      rfl
    · rw [List.getElem?_eq_none (Nat.not_lt.mp hi),
        List.getElem?_eq_none (by rw [List.length_range]; exact Nat.not_lt.mp hi)]
      rfl
  readFails := by
    intro r limit message r' h
    cases h
  seek := by
    intro r r' h
    cases h
    rfl
  seekFails := by
    intro r message r' h
    cases h

/-- Four bytes are declared of five, and there is a rewind after the first read. -/
theorem upload_delivers_cursor :
    let body : UploadBody Nat := .rewindable 0 (some 4)
    let r := body.supply.run (cursorIo [1, 2, 3, 4, 5]) (2 ^ 64 - 1)
      [.read 3 true true, .rewind, .read 3 true true, .read 3 true true]
    body.Has (cursorIo [1, 2, 3, 4, 5]) (fun i => [1, 2, 3, 4, 5].getD i 0) id ∧
      reportedBytes (sinceRewind r.2) = [1, 2, 3, 4] ∧
      Delivers (cursorIo [1, 2, 3, 4, 5]) body r.1 (sinceRewind r.2) ∧
      Honest (cursorIo [1, 2, 3, 4, 5]) (2 ^ 64 - 1) r.1 (.read 3 true true) := by
  intro body r
  have hsince : sinceRewind r.2 =
      [.read [1, 2, 3] (.ok ([1, 2, 3], false)), .read [4] (.ok ([4], false))] := by
    decide +kernel
  have h := upload_delivers (cursorIo [1, 2, 3, 4, 5]) (2 ^ 64 - 1) body
    [.read 3 true true, .rewind, .read 3 true true, .read 3 true true] (.read 3 true true)
    (Nat.succ_pos 2)
  refine ⟨⟨rfl, cursorIo_repeats _⟩, ?_, h.1 ?_, h.2⟩
  · rw [hsince]
    rfl
  · intro n hn
    change n ∈ sinceRewind r.2 at hn
    rw [hsince] at hn
    rcases List.mem_pair.mp hn with rfl | rfl
    · rintro ⟨given, heq⟩
      cases heq
    · rintro ⟨given, heq⟩
      cases heq

/-- A buffer without data: two bytes are gone, none of them is reported, and the next read goes
on behind them. -/
theorem taken_not_reported :
    let body : UploadBody Nat := .bytes [1, 2, 3]
    let r := body.supply.run (cursorIo []) (2 ^ 64 - 1) [.read 2 true false, .read 2 true true]
    r.2 = [.read [1, 2] (.error (some (.allocationFailed "upload buffer data"))),
        .read [3] (.ok ([3], false))] ∧
      body.Has (cursorIo []) (fun i => [1, 2, 3].getD i 0) id ∧
      reportedBytes (sinceRewind r.2) ≠
        slice (fun i => [1, 2, 3].getD i 0) 0 (reportedBytes (sinceRewind r.2)).length ∧
      r.1.source.remaining ≠ some (3 - (reportedBytes (sinceRewind r.2)).length) := by
  exact ⟨by decide +kernel, getElem?_getD [1, 2, 3], by decide +kernel, by decide +kernel⟩

end TokioCronet.Request
