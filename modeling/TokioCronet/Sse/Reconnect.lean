import Mathlib.Logic.Relation
import TokioCronet.Sse.Source

/-!
# What a reconnect carries over

`open` gives the event source a parser that is empty but for the last event id;
`reconnect` goes on with the parser of the broken connection. The two come to the same
exactly when the cut left nothing in the parser: no unfinished line and no field of an
unfinished event. (An event type of `message` is what an event without a type gets.)

The comparison is of two runs over the lines of the new body, one from the parser
that was left over and one from a new parser. Leftovers that could not matter are
equal to none; for all others there is a body that tells them apart, an event with
more data than the parser can have left over.
-/

namespace TokioCronet.Sse

open Scan

/-! ## A parser with nothing left over -/

namespace SseParser

/-- Nothing of an unfinished line or event is left. -/
structure Settled (p : SseParser) : Prop where
  /-- No line has begun. -/
  buffer : p.buffer = []
  /-- No data wait for a blank line. -/
  data : p.data = []
  /-- No type, or the one an event gets without one. -/
  event : p.event = [] ∨ p.event = str "message"
  /-- No id does. -/
  id : p.id = none

/-- The fields that decide what a parser makes of the next line are equal, or as good
as equal. -/
structure Sim (p q : SseParser) : Prop where
  /-- The data that wait. -/
  data : p.data = q.data
  /-- The type, of which an empty one is as good as `message`. -/
  event : p.event = q.event ∨ (p.event = str "message" ∧ q.event = [])
  /-- The id that waits. -/
  id : p.id = q.id
  /-- The last id. -/
  lastId : p.lastId = q.lastId

variable {p q : SseParser}

theorem Settled.sim (h : p.Settled) : Sim p { lastId := p.lastId } where
  data := h.data
  event := by
    rcases h.event with he | he
    · exact .inl he
    · exact .inr ⟨he, rfl⟩
  id := h.id
  lastId := rfl

theorem Sim.dispatch (h : Sim p q) :
    p.dispatch.1 = q.dispatch.1 ∧ Sim p.dispatch.2 q.dispatch.2 := by
  unfold SseParser.dispatch
  by_cases hdata : q.data = []
  · rw [if_pos (h.data.trans hdata), if_pos hdata]
    exact ⟨rfl, h.data, .inl rfl, rfl, h.lastId⟩
  · rw [if_neg (by rwa [h.data]), if_neg hdata]
    have hevent : (if p.event = [] then str "message" else p.event) =
        if q.event = [] then str "message" else q.event := by
      rcases h.event with he | ⟨hp, hq⟩
      · rw [he]
      · rw [hp, hq, if_neg (by decide), if_pos rfl]
    dsimp only
    rw [hevent, h.id, h.data, h.lastId]
    exact ⟨rfl, rfl, .inl rfl, rfl, rfl⟩

/-- **Line step.** -/
theorem Sim.pushLine (h : Sim p q) (line : List UInt8) :
    (p.pushLine line).1 = (q.pushLine line).1 ∧
      Sim (p.pushLine line).2 (q.pushLine line).2 := by
  unfold SseParser.pushLine
  split
  · exact h.dispatch
  · split
    · exact ⟨rfl, h⟩
    · dsimp only
      split
      · exact ⟨rfl, h.data, .inl rfl, h.id, h.lastId⟩
      · split
        · exact ⟨rfl, congrArg (· ++ _) h.data, h.event, h.id, h.lastId⟩
        · split
          · exact ⟨rfl, h.data, h.event, rfl, h.lastId⟩
          · split
            · split
              · exact ⟨rfl, h.data, h.event, h.id, h.lastId⟩
              · exact ⟨rfl, h⟩
            · exact ⟨rfl, h⟩

theorem Sim.readLines (ls : List (List UInt8)) : ∀ {p q : SseParser}, Sim p q →
    (p.readLines ls).1 = (q.readLines ls).1 := by
  induction ls with
  | nil => intro p q _; rfl
  | cons l ls ih =>
    intro p q h
    obtain ⟨hout, hnext⟩ := h.pushLine l
    rw [SseParser.readLines, SseParser.readLines, hout, ih hnext]

/-- A settled parser reads like a new one. -/
theorem Settled.feed (h : p.Settled) (chunks : List (List UInt8)) :
    (p.feed chunks).1 = (({ lastId := p.lastId } : SseParser).feed chunks).1 := by
  rw [feed_eq, feed_eq, h.buffer]
  exact h.sim.readLines _

/-! ## What the parser keeps of the stream -/

/-- The buffer has no line end, and the ids can be sent in a header. -/
structure Sound (p : SseParser) : Prop where
  /-- A line that has begun has no end yet. -/
  buffer : Unbroken p.buffer
  /-- The id can be sent. -/
  id : ∀ id ∈ p.id, id.contains 0 = false
  /-- So can the last id. -/
  lastId : ∀ id ∈ p.lastId, id.contains 0 = false

theorem Sound.dispatch (h : p.Sound) : p.dispatch.2.Sound := by
  unfold SseParser.dispatch
  split
  · exact ⟨h.buffer, by simp, h.lastId⟩
  · refine ⟨h.buffer, by simp, ?_⟩
    dsimp only
    split
    · rename_i id hid
      exact hid ▸ h.id
    · exact h.lastId

theorem Sound.pushLine (h : p.Sound) (line : List UInt8) : (p.pushLine line).2.Sound := by
  unfold SseParser.pushLine
  split
  · exact h.dispatch
  · split
    · exact h
    · dsimp only
      split
      · exact ⟨h.buffer, h.id, h.lastId⟩
      · split
        · exact ⟨h.buffer, h.id, h.lastId⟩
        · split
          · rename_i hid
            refine ⟨h.buffer, ?_, h.lastId⟩
            intro id hmem
            obtain rfl := Option.mem_some.mp hmem
            simpa using hid.2
          · split
            · split
              · exact ⟨h.buffer, h.id, h.lastId⟩
              · exact h
            · exact h

theorem Sound.readLines (ls : List (List UInt8)) : ∀ {p : SseParser}, p.Sound →
    (p.readLines ls).2.Sound := by
  induction ls with
  | nil => intro p h; exact h
  | cons l ls ih => intro p h; exact ih (h.pushLine l)

theorem Sound.push (h : p.Sound) (chunk : List UInt8) : (p.push chunk).2.Sound := by
  have hread := Sound.readLines (linesOf p.buffer [chunk]).1 h
  rw [push_eq]
  refine ⟨?_, hread.id, hread.lastId⟩
  exact unbroken_rest _

end SseParser

/-! ## Telling leftovers apart -/

/-- The events among the items of the parser. -/
def events (items : List ParseOutput) : List SseEvent :=
  items.filterMap fun item =>
    match item with
    | .event event => some event
    | .retry _ => none

/-- `n` bytes of data. -/
def payload (n : ℕ) : Str := List.replicate n 120

/-- A body with one event, of `n` bytes of data. -/
def probe (n : ℕ) : List UInt8 := str "data:" ++ payload n ++ [lf, lf]

theorem events_append (items items' : List ParseOutput) :
    events (items ++ items') = events items ++ events items' := List.filterMap_append

theorem length_le_joinLines {data : List Str} {value : Str} (h : value ∈ data) :
    value.length ≤ (joinLines data).length := by
  induction data using joinLines.induct with
  | case1 => simp at h
  | case2 v =>
    obtain rfl := List.mem_singleton.mp h
    exact Nat.le_refl _
  | case3 v rest hne ih =>
    rw [joinLines, List.length_append, List.length_cons]
    · rcases List.mem_cons.mp h with rfl | h
      · omega
      · have := ih h
        omega
    · exact hne

theorem length_joinLines_snoc {data : List Str} (h : data ≠ []) (value : Str) :
    value.length < (joinLines (data ++ [value])).length := by
  cases data with
  | nil => exact absurd rfl h
  | cons v rest =>
    have hmem : value ∈ rest ++ [value] := List.mem_append_right _ (List.mem_singleton_self _)
    have hle := length_le_joinLines hmem
    rw [List.cons_append, joinLines]
    · rw [List.length_append, List.length_cons]
      omega
    · simp

theorem length_payload (n : ℕ) : (payload n).length = n := List.length_replicate

theorem payload_ascii (n : ℕ) : ∀ b ∈ payload n, b = 120 := by
  intro b hb
  exact List.eq_of_mem_replicate hb

theorem str_data : str "data:" = [100, 97, 116, 97, 58] := rfl

theorem unbroken_data (n : ℕ) : Unbroken (str "data:" ++ payload n) := by
  have hfield : ∀ b ∈ str "data:", ¬ IsEol b := by
    rw [str_data]
    simp [IsEol, cr, lf]
  intro b hb
  rcases List.mem_append.mp hb with hb | hb
  · exact hfield b hb
  · rw [payload_ascii n b hb]
    rintro (h | h) <;> exact absurd h (by decide)

/-- Behind any leftover the probe is one line and a blank one. -/
theorem scan_probe {c : List UInt8} (hc : Unbroken c) (n : ℕ) :
    lines.scan (c ++ probe n) = ([c ++ (str "data:" ++ payload n), []], []) := by
  have hline : Unbroken (c ++ (str "data:" ++ payload n)) := by
    intro b hb
    rcases List.mem_append.mp hb with hb | hb
    · exact hc b hb
    · exact unbroken_data n b hb
  have hnil : Unbroken [] := by
    intro b hb
    simp at hb
  have hlf : IsEol lf := .inl rfl
  have hsplit : c ++ probe n = (c ++ (str "data:" ++ payload n)) ++ lf :: [lf] := by
    simp [probe]
  rw [hsplit, scan_eol hline hlf]
  have hblank : afterEol lf [lf] = [] ++ lf :: [] := rfl
  rw [hblank, scan_eol hnil hlf]
  have hend : afterEol lf [] = [] := rfl
  rw [hend, scan_unbroken hnil]

theorem not_bom_probe (n : ℕ) : ¬ bom <+: probe n := by
  rintro ⟨t, ht⟩
  rw [probe, str_data] at ht
  simp [bom] at ht

theorem validUtf8_ascii {a : UInt8} (h : a < 0x80) (rest : List UInt8) :
    validUtf8 (a :: rest) = validUtf8 rest := by
  rw [validUtf8.eq_def]
  simp [h]

theorem validUtf8_data (n : ℕ) : validUtf8 (str "data:" ++ payload n) = true := by
  have htail : validUtf8 (payload n) = true := by
    induction n with
    | zero => rfl
    | succ n ih =>
      rw [payload, List.replicate_succ, validUtf8_ascii (by decide)]
      exact ih
  rw [str_data]
  simp only [List.cons_append, List.nil_append]
  rw [validUtf8_ascii (by decide), validUtf8_ascii (by decide), validUtf8_ascii (by decide),
    validUtf8_ascii (by decide), validUtf8_ascii (by decide), htail]

theorem splitOnce_eq_some {text field value : Str} (h : splitOnce text = some (field, value)) :
    text = field ++ colon :: value := by
  unfold splitOnce at h
  obtain ⟨index, hindex, hpair⟩ := Option.map_eq_some_iff.mp h
  rw [Prod.mk.injEq] at hpair
  obtain ⟨rfl, rfl⟩ := hpair
  obtain ⟨hlt, hcolon, -⟩ := List.findIdx?_eq_some_iff_getElem.mp hindex
  have hget : text[index] = colon := by simpa using hcolon
  rw [← hget, ← List.drop_eq_getElem_cons hlt, List.take_append_drop]

/-- A line with a field is the field alone, or the field, a colon and the value. -/
theorem splitField_cases {line field value : Str} (h : splitField line = (field, value))
    (hne : field ≠ []) :
    (∃ rest, line = field ++ colon :: rest ∧ value = stripSpace rest) ∨
      (line = field ∧ value = []) := by
  unfold splitField at h
  by_cases hvalid : validUtf8 line = true
  · rw [if_pos hvalid] at h
    dsimp only at h
    cases honce : splitOnce line with
    | none =>
      rw [honce] at h
      cases h
      exact .inr ⟨rfl, rfl⟩
    | some pair =>
      obtain ⟨f, v⟩ := pair
      rw [honce] at h
      cases h
      exact .inl ⟨v, splitOnce_eq_some honce, rfl⟩
  · rw [if_neg hvalid] at h
    cases h
    exact absurd rfl hne

theorem stripSpace_payload (n : ℕ) : stripSpace (payload n) = payload n := by
  cases n <;> rfl

theorem splitField_data (n : ℕ) :
    splitField (str "data:" ++ payload n) = (str "data", payload n) := by
  have honce : splitOnce (str "data:" ++ payload n) = some (str "data", payload n) := rfl
  rw [splitField, if_pos (validUtf8_data n), honce]
  dsimp only
  rw [stripSpace_payload]

namespace SseParser

variable {p : SseParser}

/-- The first line of the probe, read from the start of a line. -/
theorem pushLine_data (p : SseParser) (n : ℕ) :
    p.pushLine (str "data:" ++ payload n) = (none, { p with data := p.data ++ [payload n] }) := by
  unfold pushLine
  rw [splitField_data, if_neg (by rw [str_data]; simp), if_neg (by rw [str_data]; simp [colon])]
  dsimp only
  rw [if_neg (by decide), if_pos rfl]

/-- A longer line gives the field more than the payload. -/
theorem splitField_leftover {c : List UInt8} (hc : c ≠ []) {n : ℕ} {value : Str}
    (h : splitField (c ++ (str "data:" ++ payload n)) = (str "data", value)) :
    n < value.length := by
  have hdata : str "data" = [100, 97, 116, 97] := rfl
  rcases splitField_cases h (by decide) with ⟨rest, hline, rfl⟩ | ⟨hline, -⟩
  · -- the line starts with the field, so the leftover is longer than one byte
    have htwo : 2 ≤ c.length := by
      by_contra hshort
      have hpos : 0 < c.length := List.length_pos_iff.mpr hc
      obtain ⟨b, rfl⟩ := List.length_eq_one_iff.mp (show c.length = 1 by omega)
      have hsecond := congrArg (·[1]?) hline
      simp [str_data, hdata] at hsecond
    have hlen := congrArg List.length hline
    simp only [List.length_append, List.length_cons, length_payload, str_data, hdata,
      List.length_nil] at hlen
    unfold stripSpace
    split
    · rw [List.length_cons] at hlen
      omega
    · omega
  · have hlen := congrArg List.length hline
    have hpos : 0 < c.length := List.length_pos_iff.mpr hc
    simp only [List.length_append, List.length_cons, length_payload, str_data, hdata,
      List.length_nil] at hlen
    omega

/-- **A leftover spoils the first line of the probe.** It is ignored, or its data is
longer. -/
theorem pushLine_leftover {c : List UInt8} (hc : c ≠ []) (p : SseParser) (n : ℕ) :
    events (p.pushLine (c ++ (str "data:" ++ payload n))).1.toList = [] ∧
      ((p.pushLine (c ++ (str "data:" ++ payload n))).2.data = p.data ∨
        ∃ value, (p.pushLine (c ++ (str "data:" ++ payload n))).2.data = p.data ++ [value] ∧
          n < value.length) := by
  have hne : c ++ (str "data:" ++ payload n) ≠ [] := by simp [hc]
  rcases hsplit : splitField (c ++ (str "data:" ++ payload n)) with ⟨field, value⟩
  unfold pushLine
  rw [if_neg hne, hsplit]
  split
  · exact ⟨rfl, .inl rfl⟩
  · dsimp only
    split
    · exact ⟨rfl, .inl rfl⟩
    · split
      · rename_i hfield
        rw [hfield] at hsplit
        exact ⟨rfl, .inr ⟨value, rfl, splitField_leftover hc hsplit⟩⟩
      · split
        · exact ⟨rfl, .inl rfl⟩
        · split
          · split
            · exact ⟨rfl, .inl rfl⟩
            · exact ⟨rfl, .inl rfl⟩
          · exact ⟨rfl, .inl rfl⟩

/-- A blank line gives the data read so far, if there is any. -/
theorem events_dispatch (p : SseParser) :
    events (p.pushLine []).1.toList = [] ∨
      (p.data ≠ [] ∧ events (p.pushLine []).1.toList =
        [{ id := p.id, event := if p.event = [] then str "message" else p.event,
           data := joinLines p.data }]) := by
  unfold pushLine dispatch
  rw [if_pos rfl]
  by_cases h : p.data = []
  · rw [if_pos h]
    exact .inl rfl
  · rw [if_neg h]
    exact .inr ⟨h, rfl⟩

theorem events_readLines_two (p : SseParser) (l : List UInt8) :
    events (p.readLines [l, []]).1 =
      events (p.pushLine l).1.toList ++ events ((p.pushLine l).2.pushLine []).1.toList := by
  simp only [readLines, List.append_nil, events_append]

/-- What a parser makes of the probe when it starts a line with it. -/
theorem events_probe (h : p.buffer = []) (n : ℕ) {chunk : List UInt8}
    (hchunk : stripBom chunk = probe n) :
    events (p.feed [chunk]).1 =
      [{ id := p.id, event := if p.event = [] then str "message" else p.event,
         data := joinLines (p.data ++ [payload n]) }] := by
  have hlines : linesOf p.buffer [chunk] = ([str "data:" ++ payload n, []], []) := by
    have hscan := scan_probe (c := []) (by intro b hb; simp at hb) n
    rw [List.nil_append, List.nil_append] at hscan
    simp only [linesOf, h, List.nil_append, hchunk, hscan, List.append_nil]
  rw [feed_eq, hlines]
  dsimp only
  rw [events_readLines_two, pushLine_data]
  rcases events_dispatch { p with data := p.data ++ [payload n] } with hnone | ⟨-, hevent⟩
  · unfold pushLine dispatch at hnone
    rw [if_pos rfl, if_neg (by simp)] at hnone
    cases hnone
  · rw [hevent]
    rfl

/-- There is a body that goes on the leftover line with the probe, and is just the
probe for a parser with no leftover. -/
theorem leftover_chunk (hne : p.buffer ≠ []) (hun : Unbroken p.buffer) (n : ℕ) :
    ∃ c chunk, c ≠ [] ∧ Unbroken c ∧ stripBom (p.buffer ++ chunk) = c ++ probe n ∧
      stripBom chunk = probe n := by
  by_cases hbom : bom <+: p.buffer
  · obtain ⟨rest, hrest⟩ := hbom
    by_cases hnil : rest = []
    · -- a whole mark is left over: one more comes to the front of the line
      refine ⟨bom, bom ++ probe n, by simp [bom], unbroken_bom, ?_, stripBom_bom _⟩
      rw [← hrest, hnil, List.append_nil, stripBom_bom]
    · refine ⟨rest, probe n, hnil, ?_, ?_, stripBom_of_not (not_bom_probe n)⟩
      · intro b hb
        refine hun b ?_
        rw [← hrest]
        exact List.mem_append_right _ hb
      · rw [← hrest, List.append_assoc, stripBom_bom]
  · refine ⟨p.buffer, probe n, hne, hun, ?_, stripBom_of_not (not_bom_probe n)⟩
    rcases stripBom_append p.buffer (probe n) with happ | ⟨hall, hpre, -⟩
    · rw [happ, stripBom_of_not hbom]
    · -- the probe does not go on with a mark
      exfalso
      obtain ⟨t, ht⟩ := hpre
      obtain ⟨u, hu⟩ := hall
      rw [← ht, List.append_assoc, List.append_cancel_left_eq] at hu
      cases t with
      | nil =>
        rw [List.append_nil] at ht
        exact hbom (ht ▸ List.prefix_rfl)
      | cons b t =>
        rw [List.cons_append, probe, str_data, List.cons_append, List.cons_append,
          List.cons.injEq] at hu
        have hb : b ∈ bom := by
          rw [← ht]
          exact List.mem_append_right _ List.mem_cons_self
        rw [hu.1] at hb
        exact absurd hb (by decide)

/-- **Whatever is left over shows in the events of some body.** -/
theorem leftover_tells (hsound : p.Sound) (h : ¬ p.Settled) :
    ∃ chunk, events (p.feed [chunk]).1 ≠
      events (({ lastId := p.lastId } : SseParser).feed [chunk]).1 := by
  have hnew : ∀ n chunk, stripBom chunk = probe n →
      events (({ lastId := p.lastId } : SseParser).feed [chunk]).1 =
        [{ id := none, event := str "message", data := payload n }] := by
    intro n chunk hchunk
    rw [events_probe rfl n hchunk, if_pos rfl]
    rfl
  by_cases hbuffer : p.buffer = []
  · refine ⟨probe 0, ?_⟩
    have hprobe : stripBom (probe 0) = probe 0 := stripBom_of_not (not_bom_probe 0)
    rw [events_probe hbuffer 0 hprobe, hnew 0 _ hprobe]
    intro heq
    rw [List.cons.injEq, SseEvent.mk.injEq] at heq
    obtain ⟨⟨hid, hevent, hdata⟩, -⟩ := heq
    refine h ⟨hbuffer, ?_, ?_, hid⟩
    · by_contra hne
      have hlt := length_joinLines_snoc hne (payload 0)
      rw [hdata] at hlt
      omega
    · split at hevent
      · rename_i hnil
        exact .inl hnil
      · exact .inr hevent
  · -- more data than can be left over
    obtain ⟨c, chunk, hc, hun, hstrip, hprobe⟩ :=
      leftover_chunk hbuffer hsound.buffer ((joinLines p.data).length + 1)
    refine ⟨chunk, ?_⟩
    have hlines : linesOf p.buffer [chunk] =
        ([c ++ (str "data:" ++ payload ((joinLines p.data).length + 1)), []], []) := by
      simp only [linesOf, hstrip, scan_probe hun, List.append_nil]
    rw [hnew _ _ hprobe, feed_eq, hlines]
    dsimp only
    rw [events_readLines_two]
    obtain ⟨hnone, hdata⟩ := pushLine_leftover hc p ((joinLines p.data).length + 1)
    rw [hnone, List.nil_append]
    rcases events_dispatch
      (p.pushLine (c ++ (str "data:" ++ payload ((joinLines p.data).length + 1)))).2 with
      hnil | ⟨-, hevent⟩
    · rw [hnil]
      simp
    · rw [hevent]
      intro heq
      rw [List.cons.injEq, SseEvent.mk.injEq] at heq
      have hlen := congrArg List.length heq.1.2.2
      rw [length_payload] at hlen
      rcases hdata with hsame | ⟨value, hmore, hlong⟩
      · rw [hsame] at hlen
        omega
      · rw [hmore] at hlen
        have hle := length_le_joinLines
          (List.mem_append_right p.data (List.mem_singleton_self value))
        omega

end SseParser

/-! ## From the parser to the calls -/

namespace EventSource

variable {s s' s₀ : EventSource} {net net' net₀ : Network}

/-- The body of a connection that ends, or fails, after the chunks. -/
def connection (chunks : List (List UInt8)) (failure : Option Error) : Body :=
  chunks.map .ok ++ (failure.map .error).toList

theorem foldl_accept_pending (items : List ParseOutput) : ∀ s : EventSource,
    (items.foldl accept s).pending = (events items).reverse ++ s.pending := by
  induction items with
  | nil => intro s; rfl
  | cons item items ih =>
    intro s
    rw [List.foldl_cons, ih]
    cases item with
    | event event =>
      have hevents : events (.event event :: items) = event :: events items := rfl
      rw [hevents, List.reverse_cons, List.append_assoc]
      rfl
    | retry retry => rfl

theorem ingest_pending (s : EventSource) (chunk : List UInt8) :
    (s.ingest chunk).pending = (events (s.parser.push chunk).1).reverse ++ s.pending :=
  foldl_accept_pending (s.parser.push chunk).1 { s with parser := (s.parser.push chunk).2 }

/-- Waiting events come out one a call, the oldest first. -/
theorem returns_pending {later : List SseEvent} (pending : List SseEvent) :
    ∀ {s : EventSource}, s.pending = pending →
      Returns { s with pending := [] } net later → Returns s net (pending.reverse ++ later) := by
  induction pending using List.reverseRec with
  | nil =>
    intro s hs hrest
    rw [List.reverse_nil, List.nil_append]
    have hsame : ({ s with pending := [] } : EventSource) = s := by rw [← hs]
    rwa [hsame] at hrest
  | append_singleton pending event ih =>
    intro s hs hrest
    have hround :
        s.round net = (.ready (some (.ok event)), { s with pending := pending }, net) := by
      unfold round
      rw [hs, List.getLast?_concat]
      dsimp only
      rw [List.dropLast_concat]
    rw [List.reverse_append, List.reverse_singleton, List.cons_append, List.nil_append,
      List.cons_append]
    exact .event (nextEvent_ready hround) (ih rfl hrest)

/-- **A connection returns the events of its chunks.** -/
theorem returns_connection {failure : Option Error} (hnet : net.responses = [])
    (chunks : List (List UInt8)) : ∀ {s : EventSource}, s.pending = [] →
      s.body = some (connection chunks failure) →
      Returns s net (events (s.parser.feed chunks).1) := by
  induction chunks with
  | nil =>
    intro s hpending hbody
    rcases hround : s.round net with ⟨r, s', net'⟩
    have hstop : r ≠ .again ∧ ∀ event, r ≠ .ready (some (.ok event)) := by
      rcases round_cases hround with ⟨q, event, hq, -⟩ | ⟨-, hb, -⟩ | ⟨-, chunk, items, hb, -⟩ |
        ⟨-, failure', items, hb, -, hended⟩
      · rw [hpending] at hq
        simp at hq
      · rw [hb] at hbody
        cases hbody
      · rw [hb] at hbody
        cases failure <;> simp [connection] at hbody
      · rcases ended_cases hended with ⟨body, -, -, hresp⟩ | ⟨hr, hr', -⟩
        · rw [hnet] at hresp
          cases hresp
        · exact ⟨hr, hr'⟩
    refine .stops ?_
    intro event hevent
    cases r with
    | again => exact hstop.1 rfl
    | waiting =>
      rw [nextEvent_waiting hround] at hevent
      cases hevent
    | ready item =>
      rw [nextEvent_ready hround] at hevent
      dsimp only at hevent
      rw [Option.some.injEq] at hevent
      exact hstop.2 event (by rw [hevent])
  | cons chunk chunks ih =>
    intro s hpending hbody
    have hround : s.round net =
        (.again, ({ s with body := some (connection chunks failure) }).ingest chunk, net) := by
      unfold round
      rw [hpending, hbody]
      rfl
    refine Returns.again hround ?_
    have hqueue := ingest_pending { s with body := some (connection chunks failure) } chunk
    obtain ⟨hb, hp, -⟩ := ingest_other { s with body := some (connection chunks failure) } chunk
    revert hqueue hb hp
    generalize ({ s with body := some (connection chunks failure) } : EventSource).ingest chunk = s'
    intro hqueue hb hp
    rw [hpending, List.append_nil] at hqueue
    have hfeed : events (s.parser.feed (chunk :: chunks)).1 =
        (events (s.parser.push chunk).1).reverse.reverse ++
          events ((s.parser.push chunk).2.feed chunks).1 := by
      rw [List.reverse_reverse, ← events_append]
      rfl
    have hparser : ((s.parser.push chunk).2.feed chunks).1 = (s'.parser.feed chunks).1 := by
      rw [hp]
    rw [hfeed, hparser]
    refine returns_pending _ hqueue ?_
    exact ih rfl hb

/-- `next_event` has nothing left to return, and the body has ended or failed. -/
structure Cut (s : EventSource) : Prop where
  /-- Nothing waits to be returned. -/
  pending : s.pending = []
  /-- The body has nothing but its end. -/
  body : ∃ failure : Option Error, s.body = some (connection [] failure)

/-- After a reconnect the calls return, for every body of the new connection, what a
parser that knows nothing but the last id makes of that body alone. -/
def StartsFresh (s : EventSource) : Prop :=
  ∀ net s' net' chunks failure, s.round net = (.again, s', net') →
    s'.body = some (connection chunks failure) → net'.responses = [] →
    Returns s' net' (events (({ lastId := s.parser.lastId } : SseParser).feed chunks).1)

/-- The next round of the loop, in the same call or in the next. -/
def Rounds (c c' : EventSource × Network) : Prop := ∃ r, c.1.round c.2 = (r, c'.1, c'.2)

/-- What holds of an event source between rounds. -/
structure SourceInv (b : EventSourceBuilder) (s : EventSource) : Prop where
  /-- The setting is the builder's. -/
  autoReconnect : s.autoReconnect = b.autoReconnect
  /-- The parser's ids can be sent. -/
  parser : s.parser.Sound

theorem validateString_eq_ok {value : Str} {field : String} {v : CString}
    (h : validateString value field = .ok v) : value.contains 0 = false := by
  unfold validateString at h
  split at h
  · rename_i hvalid
    exact hvalid
  · cases h

theorem validateString_of_valid {value : Str} (h : value.contains 0 = false) (field : String) :
    validateString value field = .ok ⟨value, h⟩ := by
  rw [validateString, dif_pos h]

theorem sourceInv_open {b : EventSourceBuilder}
    (h : b.openSource net₀ = (some (.ok s), net)) : SourceInv b s := by
  unfold EventSourceBuilder.openSource at h
  split at h
  · cases h
  · rename_i built hbuilt
    split at h
    · cases h
    · cases h
    · cases h
      refine ⟨rfl, by intro b hb; simp at hb, by simp, ?_⟩
      intro id hid
      dsimp only at hid
      unfold EventSourceBuilder.openRequest at hbuilt
      rw [Option.mem_def.mp hid] at hbuilt
      dsimp only [SseRequest.header] at hbuilt
      rw [validateString_of_valid (by decide)] at hbuilt
      cases hvalid : validateString id "header value" with
      | error e =>
        rw [hvalid] at hbuilt
        cases hbuilt
      | ok v => exact validateString_eq_ok hvalid

theorem sourceInv_round {b : EventSourceBuilder} {r : Round} (h : SourceInv b s)
    (hround : s.round net = (r, s', net')) : SourceInv b s' := by
  rcases round_cases hround with ⟨q, event, -, -, rfl, -⟩ | ⟨-, -, -, rfl, -⟩ |
    ⟨-, chunk, items, -, -, rfl, -⟩ | ⟨-, failure, items, -, -, hended⟩
  · exact ⟨h.autoReconnect, h.parser⟩
  · exact h
  · obtain ⟨-, hp, ha, -⟩ := ingest_other { s with body := some items } chunk
    refine ⟨ha.trans h.autoReconnect, ?_⟩
    rw [hp]
    exact h.parser.push chunk
  · rcases ended_cases hended with ⟨body, -, rfl, -⟩ | ⟨-, -, body, rfl⟩
    · exact ⟨h.autoReconnect, h.parser⟩
    · exact ⟨h.autoReconnect, h.parser⟩

theorem sourceInv_reachable {b : EventSourceBuilder}
    (hopen : b.openSource net₀ = (some (.ok s₀), net))
    (hrun : Relation.ReflTransGen Rounds (s₀, net) (s, net')) : SourceInv b s := by
  suffices ∀ c, Relation.ReflTransGen Rounds (s₀, net) c → SourceInv b c.1 from this _ hrun
  intro c hc
  induction hc with
  | refl => exact sourceInv_open hopen
  | tail _ hstep ih =>
    obtain ⟨r, hround⟩ := hstep
    exact sourceInv_round ih hround

/-- The request of a reconnect can always be built. -/
theorem reconnectRequest_ok (h : s.parser.Sound) : ∃ request, s.reconnectRequest = .ok request := by
  have hheader : ∀ (r : SseRequest) (name value : Str), name.contains 0 = false →
      value.contains 0 = false → ∃ r', r.header name value = .ok r' := by
    intro r name value hn hv
    refine ⟨{ r with headers := r.headers ++ [(⟨name, hn⟩, ⟨value, hv⟩)] }, ?_⟩
    dsimp only [SseRequest.header]
    rw [validateString_of_valid hn, validateString_of_valid hv]
    rfl
  have hfold : ∀ (headers : List (CString × CString)) (r : SseRequest),
      ∃ r', headers.foldlM (fun r h => r.header h.1.val h.2.val) r = .ok r' := by
    intro headers
    induction headers with
    | nil => intro r; exact ⟨r, rfl⟩
    | cons header headers ih =>
      intro r
      obtain ⟨r₁, hr₁⟩ := hheader r header.1.val header.2.val header.1.2 header.2.2
      obtain ⟨r₂, hr₂⟩ := ih r₁
      refine ⟨r₂, ?_⟩
      rw [List.foldlM_cons, hr₁]
      exact hr₂
  obtain ⟨r, hr⟩ := hfold s.headers
    { url := s.url, method := some ⟨str "GET", by decide⟩, headers := [], disableCache := true,
      maxResponseBytes := usizeMax }
  dsimp only [reconnectRequest, SseRequest.builder, SseRequest.withMethod]
  rw [validateString_of_valid s.url.2, validateString_of_valid (by decide)]
  dsimp only [bind, Except.bind, pure, Except.pure] at hr ⊢
  rw [hr]
  dsimp only
  cases hid : s.parser.lastId with
  | none => exact ⟨r, rfl⟩
  | some id => exact hheader r _ id (by decide) (h.lastId id hid)

theorem ended_ok {request : SseRequest} (hauto : s.autoReconnect = true)
    (hrequest : s.reconnectRequest = .ok request) (failure : Option Error) (body : Body) :
    s.ended failure { responses := [.ok body], requests := [] } =
      (.again, { s with body := some body }, { responses := [], requests := [request] }) := by
  rw [ended, if_pos hauto, reconnect, hrequest]
  rfl

/-- The next answer ends the wait of a cut source. -/
theorem round_cut {request : SseRequest} (hcut : s.Cut) (hauto : s.autoReconnect = true)
    (hrequest : s.reconnectRequest = .ok request) (body : Body) :
    s.round { responses := [.ok body], requests := [] } =
      (.again, { s with body := some body }, { responses := [], requests := [request] }) := by
  have hlast : s.pending.getLast? = none := by rw [hcut.pending]; rfl
  obtain ⟨failure, hbody⟩ := hcut.body
  rw [round, hlast]
  dsimp only
  rw [hbody]
  cases failure with
  | none => exact ended_ok hauto hrequest none body
  | some e =>
    exact ended_ok (s := { s with body := some [] }) hauto hrequest (some e) body

/-- **A reconnect starts afresh exactly if the cut left nothing in the parser.** -/
theorem reconnect_fresh_iff {b : EventSourceBuilder} (hauto : b.autoReconnect = true)
    (hopen : b.openSource net₀ = (some (.ok s₀), net))
    (hrun : Relation.ReflTransGen Rounds (s₀, net) (s, net')) (hcut : s.Cut) :
    s.StartsFresh ↔ s.parser.Settled := by
  have hinv := sourceInv_reachable hopen hrun
  obtain ⟨failure, hbody⟩ := hcut.body
  constructor
  · intro hfresh
    by_contra hleft
    obtain ⟨chunk, htells⟩ := SseParser.leftover_tells hinv.parser hleft
    obtain ⟨request, hrequest⟩ := reconnectRequest_ok hinv.parser
    -- the new connection brings the chunk that tells
    have hround := round_cut hcut (hinv.autoReconnect.trans hauto) hrequest
      (connection [chunk] none)
    have hnew := hfresh _ _ _ [chunk] none hround rfl rfl
    have hold : Returns { s with body := some (connection [chunk] none) }
        { responses := [], requests := [request] } (events (s.parser.feed [chunk]).1) :=
      returns_connection rfl [chunk] hcut.pending rfl
    exact htells (hold.unique hnew)
  · intro hsettled net₁ s₁ net₂ chunks failure' hround hbody' hnet
    have hs₁ : s₁.parser = s.parser ∧ s₁.pending = [] := by
      rcases round_cases hround with ⟨q, event, hq, -⟩ | ⟨-, -, hr, -⟩ | ⟨-, chunk, items, hb, -⟩ |
        ⟨-, failure'', items, -, -, hended⟩
      · rw [hcut.pending] at hq
        simp at hq
      · cases hr
      · rw [hb] at hbody
        cases failure <;> simp [connection] at hbody
      · rcases ended_cases hended with ⟨body, -, rfl, -⟩ | ⟨hr, -⟩
        · exact ⟨rfl, hcut.pending⟩
        · exact absurd rfl hr
    have hreturns := returns_connection hnet chunks hs₁.2 hbody'
    rwa [hs₁.1, hsettled.feed] at hreturns

/-- An event source that reconnects. -/
def reconnecting : EventSourceBuilder where
  request := { url := ⟨str "http://127.0.0.1/sse", by decide⟩, method := none, headers := [],
               disableCache := true, maxResponseBytes := usizeMax }
  lastEventId := none
  autoReconnect := true
  retry := 3000

/-- The source that `reconnecting` opens on a body. -/
def opened (body : Body) : EventSource where
  url := reconnecting.request.url
  headers := []
  body := some body
  parser := {}
  autoReconnect := true
  retry := 3000
  pending := []

/-- A connection that is cut after a blank line. -/
theorem reconnect_fresh_iff_blank :
    ({ opened (connection [] none) with
      parser := { lastId := some (str "7") } } : EventSource).StartsFresh := by
  have hread : Rounds
      (opened (connection [str "id:7\ndata:x\n\n"] none),
        { responses := [], requests := [reconnecting.request] })
      ({ opened (connection [] none) with
          parser := { lastId := some (str "7") },
          pending := [⟨some (str "7"), str "message", str "x"⟩] },
        { responses := [], requests := [reconnecting.request] }) := ⟨.again, rfl⟩
  have hreturn : Rounds
      ({ opened (connection [] none) with
          parser := { lastId := some (str "7") },
          pending := [⟨some (str "7"), str "message", str "x"⟩] },
        { responses := [], requests := [reconnecting.request] })
      ({ opened (connection [] none) with parser := { lastId := some (str "7") } },
        { responses := [], requests := [reconnecting.request] }) :=
    ⟨.ready (some (.ok ⟨some (str "7"), str "message", str "x"⟩)), rfl⟩
  have hopen : reconnecting.openSource
      { responses := [.ok (connection [str "id:7\ndata:x\n\n"] none)], requests := [] } =
      (some (.ok (opened (connection [str "id:7\ndata:x\n\n"] none))),
        { responses := [], requests := [reconnecting.request] }) := rfl
  exact (reconnect_fresh_iff rfl hopen
    (.tail (.single hread) hreturn) ⟨rfl, none, rfl⟩).mpr ⟨rfl, rfl, .inl rfl, rfl⟩

/-- The cut falls into an event: its data comes back as an event of the new
connection, and the event of the new connection is lost in its unfinished line. -/
theorem torn_event_returned :
    ((opened (connection [str "data:x\ni"] none)).nextEvent
        { responses := [.ok (connection [str "data:y\n\n"] none)], requests := [] }).1 =
      some (some (.ok ⟨none, str "message", str "x"⟩)) ∧
    (({} : SseParser).feed [str "data:y\n\n"]).1 = [.event ⟨none, str "message", str "y"⟩] := by
  decide +kernel

end EventSource

end TokioCronet.Sse
