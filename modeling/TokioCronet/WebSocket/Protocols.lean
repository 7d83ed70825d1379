import Mathlib.Data.List.DropRight
import TokioCronet.Sse.Source

/-!
# The subprotocols of a WebSocket

The list that the builder collects crosses the C interface as one string, joined by
commas; `ConnectOnNetworkThread` splits it again. `validate_string` looks for a null byte
and for nothing else, so what comes out of the split need not be what went in.
-/

namespace TokioCronet.WebSocket

open Sse (Str CString validateString)

/-! ## The program -/

/-- The part of `WebSocketBuilder` that is joined. -/
structure WebSocketBuilder where
  protocols : List CString := []

/-- `WebSocketBuilder::protocol` -/
def WebSocketBuilder.protocol (b : WebSocketBuilder) (protocol : Str) :
    Result WebSocketBuilder := do
  let protocol ← validateString protocol "WebSocket protocol"
  return { b with protocols := b.protocols ++ [protocol] }

/-- The separator of the subprotocols. -/
def comma : UInt8 := 0x2C

/-- `to_cstring(&builder.protocols.join(","))` -/
def WebSocketBuilder.join (b : WebSocketBuilder) : Result CString :=
  validateString ([comma].intercalate (b.protocols.map (·.val))) "WebSocket protocol"

/-- `requested_protocols` of `ConnectOnNetworkThread`; `splitString` is `base::SplitString`
with its other arguments. -/
def requestedProtocols (splitString : Str → List Str) (protocols : Str) : List Str :=
  if protocols = [] then [] else splitString protocols

/-- What the native channel is asked for. -/
def WebSocketBuilder.requested (splitString : Str → List Str) (b : WebSocketBuilder) :
    Result (List Str) := do
  let protocols ← b.join
  return requestedProtocols splitString protocols.val

/-! ## `base::SplitString` -/

/-- `base::kWhitespaceASCII` -/
def isWhitespace (b : UInt8) : Bool := b == 0x20 || (0x09 ≤ b && b ≤ 0x0D)

/-- `base::TrimWhitespaceASCII` at both ends. -/
def trimWhitespace (s : Str) : Str := (s.dropWhile isWhitespace).rdropWhile isWhitespace

/-- `TRIM_WHITESPACE` and `SPLIT_WANT_NONEMPTY`, at commas. -/
def SplitsTrimmed (splitString : Str → List Str) : Prop :=
  ∀ s, splitString s = ((s.splitOn comma).map trimWhitespace).filter (· ≠ [])

/-- A subprotocol that is left as it is. -/
structure Plain (p : Str) : Prop where
  /-- It is not empty. -/
  ne_nil : p ≠ []
  /-- It has no separator. -/
  comma : comma ∉ p
  /-- No blank stands before it. -/
  head : ∀ b ∈ p.head?, isWhitespace b = false
  /-- No blank stands behind it. -/
  last : ∀ b ∈ p.getLast?, isWhitespace b = false

theorem trimWhitespace_plain {p : Str} (h : Plain p) : trimWhitespace p = p := by
  have hdrop : p.dropWhile isWhitespace = p := by
    cases p with
    | nil => rfl
    | cons b p => rw [List.dropWhile_cons, h.head b rfl, if_neg Bool.false_ne_true]
  rw [trimWhitespace, hdrop, List.rdropWhile_eq_self_iff]
  intro hne
  rw [h.last _ (List.getLast?_eq_getLast_of_ne_nil hne)]
  exact Bool.false_ne_true

theorem trimWhitespace_head (s : Str) : ∀ b ∈ (trimWhitespace s).head?, isWhitespace b = false := by
  intro b hb
  obtain ⟨rest, hrest⟩ := List.rdropWhile_prefix (p := isWhitespace) (s.dropWhile isWhitespace)
  have hhead : b ∈ (s.dropWhile isWhitespace).head? := by
    rw [← hrest, List.head?_append, show (List.rdropWhile _ _).head? = some b from hb]
    rfl
  have hnot := List.head?_dropWhile_not isWhitespace s
  rw [Option.mem_def.mp hhead] at hnot
  simpa using hnot

theorem trimWhitespace_last (s : Str) :
    ∀ b ∈ (trimWhitespace s).getLast?, isWhitespace b = false := by
  intro b hb
  have hne : trimWhitespace s ≠ [] := by
    intro hnil
    rw [hnil] at hb
    cases hb
  have hlast := List.rdropWhile_last_not isWhitespace (s.dropWhile isWhitespace) hne
  rw [List.getLast?_eq_getLast_of_ne_nil hne, Option.mem_some_iff] at hb
  rw [← hb]
  exact Bool.eq_false_iff.mpr hlast

theorem mem_of_mem_trimWhitespace {s : Str} {b : UInt8} (h : b ∈ trimWhitespace s) : b ∈ s :=
  (List.dropWhile_suffix _).subset ((List.rdropWhile_prefix _ _).subset h)

/-- A piece of a split has no separator. -/
theorem notMem_of_mem_splitOn {s piece : Str} {sep : UInt8} (h : piece ∈ s.splitOn sep) :
    sep ∉ piece := by
  induction s generalizing piece with
  | nil =>
    rw [List.splitOn_eq_singleton List.not_mem_nil, List.mem_singleton] at h
    rw [h]
    exact List.not_mem_nil
  | cons b s ih =>
    rw [List.splitOn_cons_eq_if_modifyHead] at h
    split at h
    · rcases List.mem_cons.mp h with rfl | h
      · exact List.not_mem_nil
      · exact ih h
    · rename_i hb
      obtain ⟨first, rest, heq⟩ := List.exists_cons_of_ne_nil (List.splitOn_ne_nil sep s)
      rw [heq, List.modifyHead_cons] at h
      rcases List.mem_cons.mp h with rfl | h
      · intro hmem
        rcases List.mem_cons.mp hmem with rfl | hmem
        · exact hb (beq_self_eq_true _)
        · exact ih (heq ▸ List.mem_cons_self) hmem
      · exact ih (heq ▸ List.mem_cons_of_mem _ h)

/-- Whatever a split gives is plain. -/
theorem plain_of_mem_split {splitString : Str → List Str} (hsplit : SplitsTrimmed splitString)
    {s p : Str} (h : p ∈ splitString s) : Plain p := by
  rw [hsplit, List.mem_filter] at h
  obtain ⟨hmem, hne⟩ := h
  obtain ⟨piece, hpiece, rfl⟩ := List.mem_map.mp hmem
  exact ⟨of_decide_eq_true hne,
    fun hcomma => notMem_of_mem_splitOn hpiece (mem_of_mem_trimWhitespace hcomma),
    trimWhitespace_head piece, trimWhitespace_last piece⟩

theorem splitOn_intercalate {protocols : List Str} (hne : protocols ≠ [])
    (h : ∀ p ∈ protocols, comma ∉ p) :
    ([comma].intercalate protocols).splitOn comma = protocols := by
  induction protocols with
  | nil => exact absurd rfl hne
  | cons p rest ih =>
    cases rest with
    | nil =>
      rw [List.intercalate_singleton, List.splitOn_eq_singleton (h p List.mem_cons_self)]
    | cons q rest =>
      rw [List.intercalate_cons_of_ne_nil (List.cons_ne_nil q rest), List.append_assoc,
        List.singleton_append,
        List.splitOn_append_cons_self_of_not_mem (h p List.mem_cons_self),
        ih (List.cons_ne_nil q rest) fun r hr => h r (List.mem_cons_of_mem p hr)]

theorem split_plain {splitString : Str → List Str} (hsplit : SplitsTrimmed splitString)
    {protocols : List Str} (hne : protocols ≠ []) (h : ∀ p ∈ protocols, Plain p) :
    splitString ([comma].intercalate protocols) = protocols := by
  rw [hsplit, splitOn_intercalate hne fun p hp => (h p hp).comma]
  have hmap : protocols.map trimWhitespace = protocols := by
    refine (List.map_congr_left fun p hp => ?_).trans (List.map_id protocols)
    exact trimWhitespace_plain (h p hp)
  rw [hmap, List.filter_eq_self]
  intro p hp
  exact decide_eq_true (h p hp).ne_nil

/-! ## The builder -/

/-- A builder that got all of a list. -/
def WebSocketBuilder.protocolAll (b : WebSocketBuilder) (protocols : List Str) :
    Result WebSocketBuilder :=
  protocols.foldlM WebSocketBuilder.protocol b

theorem protocol_ok {b b' : WebSocketBuilder} {p : Str} (h : b.protocol p = .ok b') :
    p.contains 0 = false ∧ b'.protocols.map (·.val) = b.protocols.map (·.val) ++ [p] := by
  unfold WebSocketBuilder.protocol validateString at h
  by_cases hnull : p.contains 0 = false
  · rw [dif_pos hnull] at h
    cases h
    exact ⟨hnull, by rw [List.map_append]; rfl⟩
  · rw [dif_neg hnull] at h
    cases h

/-- What was accepted has no null byte, and is kept in order. -/
theorem protocolAll_ok {b b' : WebSocketBuilder} {protocols : List Str}
    (h : b.protocolAll protocols = .ok b') :
    (∀ p ∈ protocols, p.contains 0 = false) ∧
      b'.protocols.map (·.val) = b.protocols.map (·.val) ++ protocols := by
  induction protocols generalizing b with
  | nil =>
    cases h
    exact ⟨List.forall_mem_nil _, (List.append_nil _).symm⟩
  | cons p protocols ih =>
    unfold WebSocketBuilder.protocolAll at h
    rw [List.foldlM_cons] at h
    cases hp : b.protocol p with
    | error e =>
      rw [hp] at h
      cases h
    | ok next =>
      rw [hp] at h
      obtain ⟨hnull, hnext⟩ := protocol_ok hp
      obtain ⟨hall, heq⟩ := ih h
      refine ⟨List.forall_mem_cons.mpr ⟨hnull, hall⟩, ?_⟩
      rw [heq, hnext, List.append_assoc, List.singleton_append]

/-- A join of strings without a null byte has none. -/
theorem intercalate_contains {protocols : List Str} (h : ∀ p ∈ protocols, p.contains 0 = false) :
    ([comma].intercalate protocols).contains 0 = false := by
  induction protocols with
  | nil => rfl
  | cons p rest ih =>
    have hp := h p List.mem_cons_self
    cases rest with
    | nil =>
      rw [List.intercalate_singleton]
      exact hp
    | cons q rest =>
      have hrest := ih fun r hr => h r (List.mem_cons_of_mem p hr)
      rw [List.intercalate_cons_of_ne_nil (List.cons_ne_nil q rest)]
      rw [List.contains_eq_mem, decide_eq_false_iff_not] at hp hrest ⊢
      intro hmem
      rcases List.mem_append.mp hmem with hmem | hmem
      · rcases List.mem_append.mp hmem with hmem | hmem
        · exact hp hmem
        · exact absurd (List.mem_singleton.mp hmem) (by decide)
      · exact hrest hmem

theorem requested_eq {splitString : Str → List Str} {b : WebSocketBuilder}
    {protocols : List Str} (h : WebSocketBuilder.protocolAll {} protocols = .ok b) :
    b.requested splitString =
      .ok (requestedProtocols splitString ([comma].intercalate protocols)) := by
  obtain ⟨hnull, heq⟩ := protocolAll_ok h
  rw [List.map_nil, List.nil_append] at heq
  unfold WebSocketBuilder.requested WebSocketBuilder.join validateString
  rw [heq, dif_pos (intercalate_contains hnull)]
  rfl

/-- **The native channel is asked for the list of the builder exactly when every entry is
plain**: not empty, without a comma, and without white space at its ends. -/
theorem protocols_requested {splitString : Str → List Str} (hsplit : SplitsTrimmed splitString)
    {b : WebSocketBuilder} {protocols : List Str}
    (h : WebSocketBuilder.protocolAll {} protocols = .ok b) :
    b.requested splitString = .ok protocols ↔ ∀ p ∈ protocols, Plain p := by
  rw [requested_eq h, requestedProtocols]
  constructor
  · intro heq p hp
    have hlist := Except.ok.inj heq
    rw [← hlist] at hp
    split at hp
    · cases hp
    · exact plain_of_mem_split hsplit hp
  · intro hplain
    cases protocols with
    | nil => rfl
    | cons p rest =>
      have hjoin : [comma].intercalate (p :: rest) ≠ [] := by
        obtain ⟨c, p, rfl⟩ := List.exists_cons_of_ne_nil (hplain p List.mem_cons_self).ne_nil
        cases rest with
        | nil => simp
        | cons q rest => simp [List.intercalate_cons_of_ne_nil]
      rw [if_neg hjoin, split_plain hsplit (List.cons_ne_nil p rest) hplain]

/-- What the flags of `base::SplitString` ask for. -/
def splitAtCommas (s : Str) : List Str :=
  ((s.splitOn comma).map trimWhitespace).filter (· ≠ [])

/-- `chat` and `v2`. -/
theorem protocols_requested_two :
    let protocols : List Str := [[0x63, 0x68, 0x61, 0x74], [0x76, 0x32]]
    ∃ b, WebSocketBuilder.protocolAll {} protocols = .ok b ∧ SplitsTrimmed splitAtCommas ∧
      (b.requested splitAtCommas = .ok protocols ↔ ∀ p ∈ protocols, Plain p) := by
  intro protocols
  have hsplit : SplitsTrimmed splitAtCommas := fun _ => rfl
  have hb : WebSocketBuilder.protocolAll {} protocols =
      .ok { protocols := [⟨[0x63, 0x68, 0x61, 0x74], by decide⟩, ⟨[0x76, 0x32], by decide⟩] } := rfl
  exact ⟨_, hb, hsplit, protocols_requested hsplit hb⟩

/-- One subprotocol with a comma, `a,b`, becomes two. -/
theorem protocol_split :
    let protocols : List Str := [[0x61, 0x2C, 0x62]]
    ∃ b, WebSocketBuilder.protocolAll {} protocols = .ok b ∧ SplitsTrimmed splitAtCommas ∧
      b.requested splitAtCommas = .ok [[0x61], [0x62]] ∧
      b.requested splitAtCommas ≠ .ok protocols := by
  refine ⟨{ protocols := [⟨[0x61, 0x2C, 0x62], by decide⟩] }, rfl, fun _ => rfl, ?_, ?_⟩
  · decide
  · decide

end TokioCronet.WebSocket
