import TokioCronet.Sse.Reconnect
import TokioCronet.Sse.Standard

/-!
# Blocks

A blank line ends a block of lines, and what a block comes to depends on its own lines
alone. So both the parser and the standard are brought into one closed form here: what
they make of a stream, block by block, given how they read a line that is not blank.
They read most lines alike. The parser ignores a line that is no UTF-8, and it takes a
sign before a number.
-/

namespace TokioCronet.Sse

open Standard

/-- The blocks that a blank line has ended, and the lines of the block in progress. -/
def blocksOf (ls : List (List UInt8)) : List (List (List UInt8)) × List (List UInt8) :=
  ls.foldl (fun b line => if line = [] then (b.1 ++ [b.2], []) else (b.1, b.2 ++ [line])) ([], [])

/-- A line that is not ignored. -/
inductive Field where
  | event (value : Str)
  | data (value : Str)
  | id (value : Str)
  | retry (millis : ℕ)
  deriving DecidableEq

namespace Field

/-- The value of an `event` field. -/
def event? : Field → Option Str
  | .event value => some value
  | _ => none

/-- The value of a `data` field. -/
def data? : Field → Option Str
  | .data value => some value
  | _ => none

/-- The value of an `id` field that counts. -/
def id? : Field → Option Str
  | .id value => some value
  | _ => none

/-- The value of a `retry` field that counts. -/
def retry? : Field → Option ℕ
  | .retry millis => some millis
  | _ => none

end Field

/-- The field that a name and a value are. -/
def classify (name value : Str) (millis : Option ℕ) : Option Field :=
  if name = str "event" then some (.event value)
  else if name = str "data" then some (.data value)
  else if name = str "id" then if value.contains 0 then none else some (.id value)
  else if name = str "retry" then millis.map .retry
  else none

/-- How the parser reads a line. -/
def strict (line : List UInt8) : Option Field :=
  classify (splitField line).1 (splitField line).2 (parseU64 (splitField line).2)

/-- How the standard reads it, on bytes. -/
def liberal (line : List UInt8) : Option Field :=
  classify (rawField line).1 (lossy (rawField line).2) (millis (Utf8.decode (rawField line).2))

/-! ## The closed form -/

section Closed

variable (r : List UInt8 → Option Field)

/-- The data fields of a block. -/
def datas (block : List (List UInt8)) : List Str :=
  block.filterMap fun line => (r line).bind Field.data?

/-- The event fields of a block. -/
def types (block : List (List UInt8)) : List Str :=
  block.filterMap fun line => (r line).bind Field.event?

/-- The id fields of a block. -/
def ids (block : List (List UInt8)) : List Str :=
  block.filterMap fun line => (r line).bind Field.id?

/-- The retry fields of some lines. -/
def retries (ls : List (List UInt8)) : List ℕ := ls.filterMap fun line => (r line).bind Field.retry?

/-- The event type of a block, as long as it has one. -/
def typeOf (block : List (List UInt8)) : Str := (types r block).getLast?.getD []

/-- The event type and the data of the event of a block. -/
def dispatched (block : List (List UInt8)) : Option (Str × Str) :=
  if datas r block = [] then none
  else some (if typeOf r block = [] then str "message" else typeOf r block,
    joinLines (datas r block))

end Closed

variable {r : List UInt8 → Option Field} {ls block : List (List UInt8)} {line : List UInt8}

theorem blocksOf_blank (ls : List (List UInt8)) :
    blocksOf (ls ++ [[]]) = ((blocksOf ls).1 ++ [(blocksOf ls).2], []) := by
  rw [blocksOf, List.foldl_append]
  rfl

theorem blocksOf_line (ls : List (List UInt8)) (h : line ≠ []) :
    blocksOf (ls ++ [line]) = ((blocksOf ls).1, (blocksOf ls).2 ++ [line]) := by
  rw [blocksOf, List.foldl_append]
  exact if_neg h

theorem datas_snoc (block : List (List UInt8)) (line : List UInt8) :
    datas r (block ++ [line]) = datas r block ++ ((r line).bind Field.data?).toList := by
  rw [datas, List.filterMap_append]
  cases h : (r line).bind Field.data? <;> simp [datas, h]

theorem types_snoc (block : List (List UInt8)) (line : List UInt8) :
    types r (block ++ [line]) = types r block ++ ((r line).bind Field.event?).toList := by
  rw [types, List.filterMap_append]
  cases h : (r line).bind Field.event? <;> simp [types, h]

theorem ids_snoc (block : List (List UInt8)) (line : List UInt8) :
    ids r (block ++ [line]) = ids r block ++ ((r line).bind Field.id?).toList := by
  rw [ids, List.filterMap_append]
  cases h : (r line).bind Field.id? <;> simp [ids, h]

theorem retries_snoc (ls : List (List UInt8)) (line : List UInt8) :
    retries r (ls ++ [line]) = retries r ls ++ ((r line).bind Field.retry?).toList := by
  rw [retries, List.filterMap_append]
  cases h : (r line).bind Field.retry? <;> simp [retries, h]

/-! ## The parser -/

/-- The retry times among the items of the parser. -/
def retriesOf (items : List ParseOutput) : List ℕ :=
  items.filterMap fun item =>
    match item with
    | .event _ => none
    | .retry millis => some millis

theorem retriesOf_append (items items' : List ParseOutput) :
    retriesOf (items ++ items') = retriesOf items ++ retriesOf items' := List.filterMap_append

/-- The event type and the data of every event. -/
def typed (items : List ParseOutput) : List (Str × Str) :=
  (events items).map fun e => (e.event, e.data)

theorem typed_append (items items' : List ParseOutput) :
    typed (items ++ items') = typed items ++ typed items' := by
  rw [typed, events_append, List.map_append]
  rfl

/-- What the parser does with a field. -/
def SseParser.take (p : SseParser) : Option Field → Option ParseOutput × SseParser
  | some (.event value) => (none, { p with event := value })
  | some (.data value) => (none, { p with data := p.data ++ [value] })
  | some (.id value) => (none, { p with id := some value })
  | some (.retry millis) => (some (.retry millis), { p with retry := some millis })
  | none => (none, p)

theorem splitField_comment (h : line.head? = some colon) : (splitField line).1 = [] := by
  rw [splitField]
  by_cases hvalid : validUtf8 line = true
  · rw [if_pos hvalid]
    cases line with
    | nil => cases h
    | cons b rest =>
      rw [List.head?_cons, Option.some.injEq] at h
      rw [h]
      rfl
  · rw [if_neg hvalid]
    rfl

/-- **A line is read as its field.** -/
theorem pushLine_take (p : SseParser) (h : line ≠ []) : p.pushLine line = p.take (strict line) := by
  rw [SseParser.pushLine, if_neg h]
  by_cases hcomment : line.head? = some colon
  · rw [if_pos hcomment, strict, splitField_comment hcomment]
    rfl
  · rw [if_neg hcomment]
    unfold strict
    generalize splitField line = pair
    obtain ⟨name, value⟩ := pair
    dsimp only
    unfold classify
    by_cases hevent : name = str "event"
    · rw [if_pos hevent, if_pos hevent]
      rfl
    rw [if_neg hevent, if_neg hevent]
    by_cases hdata : name = str "data"
    · rw [if_pos hdata, if_pos hdata]
      rfl
    rw [if_neg hdata, if_neg hdata]
    by_cases hid : name = str "id"
    · rw [if_pos hid]
      by_cases hnul : value.contains 0 = true
      · -- the next test is for another name
        rw [if_neg fun h => h.2 hnul, if_neg (by rw [hid]; decide), if_pos hnul]
        rfl
      · rw [if_pos ⟨hid, hnul⟩, if_neg hnul]
        rfl
    rw [if_neg fun h => hid h.1, if_neg hid]
    by_cases hretry : name = str "retry"
    · rw [if_pos hretry, if_pos hretry]
      cases parseU64 value <;> rfl
    · rw [if_neg hretry, if_neg hretry]
      rfl

/-- **What the parser has made of the lines**, read from a parser with the last id `init`. -/
structure ReadInv (init : Option Str) (ls : List (List UInt8)) (items : List ParseOutput)
    (p : SseParser) : Prop where
  /-- The data of the block that is not over. -/
  data : p.data = datas strict (blocksOf ls).2
  /-- Its type. -/
  event : p.event = typeOf strict (blocksOf ls).2
  /-- Its last id. -/
  id : p.id = (ids strict (blocksOf ls).2).getLast?
  /-- The last id of the blocks that were dispatched. -/
  lastId : p.lastId = (((blocksOf ls).1.filter fun b => datas strict b ≠ []).flatMap
    (ids strict)).getLast?.or init
  /-- The events of the blocks that are over. -/
  events : typed items = (blocksOf ls).1.filterMap (dispatched strict)
  /-- The retry times of all lines. -/
  retries : retriesOf items = retries strict ls

variable {init : Option Str} {items : List ParseOutput} {p : SseParser}

/-- **A blank line.** -/
theorem ReadInv.blank (h : ReadInv init ls items p) :
    ReadInv init (ls ++ [[]]) (items ++ p.dispatch.1.toList) p.dispatch.2 := by
  have hblock : dispatched strict (blocksOf ls).2 = if p.data = [] then none
      else some (if p.event = [] then str "message" else p.event, joinLines p.data) := by
    rw [dispatched, ← h.data, ← h.event]
  by_cases hdata : p.data = []
  · have hdispatch : p.dispatch = (none, { p with event := [], id := none }) := if_pos hdata
    have hnone : datas strict (blocksOf ls).2 = [] := h.data.symm.trans hdata
    rw [hdispatch]
    refine ⟨?_, ?_, ?_, ?_, ?_, ?_⟩
    · rw [blocksOf_blank]
      exact hdata
    · rw [blocksOf_blank]
      rfl
    · rw [blocksOf_blank]
      rfl
    · rw [blocksOf_blank, List.filter_append, List.filter_cons_of_neg (by simp [hnone]),
        List.filter_nil, List.append_nil]
      exact h.lastId
    · rw [typed_append, blocksOf_blank, List.filterMap_append, h.events, List.filterMap_cons,
        hblock, if_pos hdata]
      rfl
    · rw [retriesOf_append, retries_snoc, h.retries]
      rfl
  · have hsome : datas strict (blocksOf ls).2 ≠ [] := fun hnil => hdata (h.data.trans hnil)
    rw [SseParser.dispatch, if_neg hdata]
    refine ⟨?_, ?_, ?_, ?_, ?_, ?_⟩
    · rw [blocksOf_blank]
      rfl
    · rw [blocksOf_blank]
      rfl
    · rw [blocksOf_blank]
      rfl
    · rw [blocksOf_blank, List.filter_append, List.filter_cons_of_pos (by simp [hsome]),
        List.filter_nil, List.flatMap_append, List.flatMap_singleton, List.getLast?_append,
        Option.or_assoc, ← h.id, ← h.lastId]
      cases p.id <;> rfl
    · rw [typed_append, blocksOf_blank, List.filterMap_append, h.events, List.filterMap_cons,
        hblock, if_neg hdata]
      rfl
    · rw [retriesOf_append, retries_snoc, h.retries]
      rfl

/-- **Any other line.** -/
theorem ReadInv.push (h : ReadInv init ls items p) (hline : line ≠ []) :
    ReadInv init (ls ++ [line]) (items ++ (p.pushLine line).1.toList) (p.pushLine line).2 := by
  have hsame : (blocksOf (ls ++ [line])).1 = (blocksOf ls).1 := by rw [blocksOf_line ls hline]
  have hopen : (blocksOf (ls ++ [line])).2 = (blocksOf ls).2 ++ [line] := by
    rw [blocksOf_line ls hline]
  rw [pushLine_take p hline]
  refine ⟨?_, ?_, ?_, ?_, ?_, ?_⟩
  · rw [hopen, datas_snoc, ← h.data]
    rcases strict line with - | (_ | _ | _ | _)
    case some.data => rfl
    all_goals exact (List.append_nil _).symm
  · rw [hopen, typeOf, types_snoc, List.getLast?_append]
    have hevent := h.event
    rw [typeOf] at hevent
    rcases strict line with - | (_ | _ | _ | _)
    case some.event => rfl
    all_goals exact hevent
  · rw [hopen, ids_snoc, List.getLast?_append]
    have hid := h.id
    rcases strict line with - | (_ | _ | _ | _)
    case some.id => rfl
    all_goals exact hid
  · rw [hsame]
    have hlast := h.lastId
    rcases strict line with - | (_ | _ | _ | _) <;> exact hlast
  · rw [hsame, typed_append, h.events]
    rcases strict line with - | (_ | _ | _ | _) <;> exact List.append_nil _
  · rw [retriesOf_append, retries_snoc, h.retries]
    rcases strict line with - | (_ | _ | _ | _) <;> rfl

/-- **The parser in closed form.** -/
theorem readInv_readLines (init : Option Str) (ls : List (List UInt8)) :
    ReadInv init ls (({ lastId := init } : SseParser).readLines ls).1
      (({ lastId := init } : SseParser).readLines ls).2 := by
  induction ls using List.reverseRec with
  | nil => exact ⟨rfl, rfl, rfl, rfl, rfl, rfl⟩
  | append_singleton ls line ih =>
    rw [SseParser.readLines_append, SseParser.readLines, SseParser.readLines, List.append_nil]
    by_cases hline : line = []
    · rw [hline, SseParser.pushLine, if_pos rfl]
      exact ih.blank
    · exact ih.push hline

/-! ## The standard -/

/-- A value in bytes. -/
abbrev utf8 (text : Text) : Str := Utf8.encode text

theorem name_decode {name : Str} {text : Text} {literal : Str}
    (hascii : text.all (·.toNat < 0x80) = true) (hliteral : utf8 text = literal) :
    Utf8.decode name = text ↔ name = literal := by
  have hascii' : ∀ x ∈ text, x.toNat < 0x80 := by
    intro x hx
    exact of_decide_eq_true (List.all_eq_true.mp hascii x hx)
  rw [Utf8.decode_eq_ascii hascii', ← hliteral]

theorem nul_decode (value : Str) :
    (Utf8.decode value).contains '\x00' = (lossy value).contains 0 := by
  rw [Bool.eq_iff_iff, List.contains_iff_mem, List.contains_iff_mem]
  constructor
  · intro h
    exact List.mem_flatMap.mpr ⟨_, h, by decide⟩
  · intro h
    obtain ⟨x, hx, hzero⟩ := Utf8.encode_mem h (by decide)
    have hnul : x = '\x00' := Char.toNat_inj.mp hzero
    rwa [← hnul]

/-- A line of the text is processed as its field. -/
theorem readLine_decode (i : Interpreter) (h : line ≠ []) :
    i.readLine (Utf8.decode line) =
      i.processField (Utf8.decode (rawField line).1) (Utf8.decode (rawField line).2) := by
  rw [Interpreter.readLine, if_neg fun hnil => h (Utf8.decode_eq_nil.mp hnil), field_decode]
  by_cases hcomment : (Utf8.decode line).head? = some ':'
  · -- a comment has no name
    rw [if_pos hcomment]
    have hhead : line.head? = some colon := (head?_decode (b := colon) (by decide)).mp hcomment
    cases line with
    | nil => cases hhead
    | cons b rest =>
      rw [List.head?_cons, Option.some.injEq] at hhead
      rw [hhead]
      rfl
  · rw [if_neg hcomment]

/-- What the standard does with a field of the given value. -/
def Standard.Interpreter.take (i : Interpreter) (value : Text) : Option Field → Interpreter
  | some (.event _) => { i with event := value }
  | some (.data _) => { i with data := i.data ++ (value ++ ['\n']) }
  | some (.id _) => { i with idBuffer := some value }
  | some (.retry n) => { i with retries := i.retries ++ [n] }
  | none => i

theorem processField_take (i : Interpreter) (name value : Str) :
    i.processField (Utf8.decode name) (Utf8.decode value) =
      i.take (Utf8.decode value) (classify name (lossy value) (millis (Utf8.decode value))) := by
  have hevent : Utf8.decode name = "event".toList ↔ name = str "event" :=
    name_decode (by decide) (by decide)
  have hdata : Utf8.decode name = "data".toList ↔ name = str "data" :=
    name_decode (by decide) (by decide)
  have hid : Utf8.decode name = "id".toList ↔ name = str "id" :=
    name_decode (by decide) (by decide)
  have hretry : Utf8.decode name = "retry".toList ↔ name = str "retry" :=
    name_decode (by decide) (by decide)
  unfold Interpreter.processField classify
  by_cases h : name = str "event"
  · rw [if_pos (hevent.mpr h), if_pos h]
    rfl
  rw [if_neg (mt hevent.mp h), if_neg h]
  by_cases h : name = str "data"
  · rw [if_pos (hdata.mpr h), if_pos h]
    rfl
  rw [if_neg (mt hdata.mp h), if_neg h]
  by_cases h : name = str "id"
  · rw [if_pos (hid.mpr h), if_pos h, nul_decode]
    cases (lossy value).contains 0 <;> rfl
  rw [if_neg (mt hid.mp h), if_neg h]
  by_cases h : name = str "retry"
  · rw [if_pos (hretry.mpr h), if_pos h]
    cases millis (Utf8.decode value) <;> rfl
  rw [if_neg (mt hretry.mp h), if_neg h]
  rfl

/-- A field has the value of its line. -/
theorem classify_value {name value : Str} {n : Option ℕ} {f : Field}
    (h : classify name value n = some f) :
    f = .event value ∨ f = .data value ∨ f = .id value ∨ ∃ m, f = .retry m := by
  unfold classify at h
  split_ifs at h
  · exact .inl (Option.some.inj h).symm
  · exact .inr (.inl (Option.some.inj h).symm)
  · exact .inr (.inr (.inl (Option.some.inj h).symm))
  · obtain ⟨m, -, rfl⟩ := Option.map_eq_some_iff.mp h
    exact .inr (.inr (.inr ⟨m, rfl⟩))

/-- The data buffer: every value with a line feed behind it. -/
def buffered (values : List Text) : Text := values.flatMap (· ++ ['\n'])

theorem buffered_eq_nil {values : List Text} : buffered values = [] ↔ values = [] := by
  constructor
  · intro h
    cases values with
    | nil => rfl
    | cons value values =>
      rw [buffered, List.flatMap_cons, List.append_assoc, List.append_eq_nil_iff] at h
      exact absurd h.2 (List.cons_ne_nil _ _)
  · rintro rfl
    rfl

theorem utf8_dropLast (values : List Text) :
    utf8 (buffered values).dropLast = joinLines (values.map utf8) := by
  induction values with
  | nil => rfl
  | cons value values ih =>
    cases values with
    | nil =>
      rw [buffered, List.flatMap_cons, List.flatMap_nil, List.append_nil, List.dropLast_concat]
      rfl
    | cons value' values =>
      have hne : buffered (value' :: values) ≠ [] :=
        fun h => List.cons_ne_nil _ _ (buffered_eq_nil.mp h)
      have hcons : buffered (value :: value' :: values) =
          value ++ '\n' :: buffered (value' :: values) := by
        rw [buffered, List.flatMap_cons, List.append_assoc]
        rfl
      rw [hcons, List.dropLast_append_of_ne_nil (List.cons_ne_nil _ _),
        List.dropLast_cons_of_ne_nil hne, utf8, Utf8.encode_append, Utf8.encode_cons, ← utf8,
        ← utf8, ih]
      rfl

/-- **What the lines mean**, read by the standard. -/
structure Meant (ls : List (List UInt8)) (i : Interpreter) : Prop where
  /-- The data of the block that is not over. -/
  data : ∃ values, i.data = buffered values ∧ values.map utf8 = datas liberal (blocksOf ls).2
  /-- Its type. -/
  event : utf8 i.event = typeOf liberal (blocksOf ls).2
  /-- The last id of all lines. -/
  idBuffer : i.idBuffer.map utf8 =
    (ids liberal ((blocksOf ls).1.flatten ++ (blocksOf ls).2)).getLast?
  /-- The last id of the blocks that are over. -/
  lastId : i.lastId.map utf8 = (ids liberal (blocksOf ls).1.flatten).getLast?
  /-- The events of the blocks that are over. -/
  events : i.events.map (Prod.map utf8 utf8) = (blocksOf ls).1.filterMap (dispatched liberal)
  /-- The retry times of all lines. -/
  retries : i.retries = retries liberal ls

variable {i : Interpreter}

theorem Meant.blank (h : Meant ls i) : Meant (ls ++ [[]]) i.dispatch := by
  obtain ⟨values, hvalues, hdatas⟩ := h.data
  have hnil : i.data = [] ↔ datas liberal (blocksOf ls).2 = [] := by
    rw [hvalues, buffered_eq_nil, ← hdatas, List.map_eq_nil_iff]
  have hflatten : ((blocksOf ls).1 ++ [(blocksOf ls).2]).flatten =
      (blocksOf ls).1.flatten ++ (blocksOf ls).2 := by
    rw [List.flatten_append, List.flatten_singleton]
  have hretries : i.retries = Sse.retries liberal (ls ++ [[]]) := by
    rw [retries_snoc, h.retries]
    exact (List.append_nil _).symm
  by_cases hdata : i.data = []
  · rw [Interpreter.dispatch, if_pos hdata]
    refine ⟨⟨[], hdata, ?_⟩, ?_, ?_, ?_, ?_, hretries⟩
    · rw [blocksOf_blank]
      rfl
    · rw [blocksOf_blank]
      rfl
    · rw [blocksOf_blank, hflatten, List.append_nil]
      exact h.idBuffer
    · rw [blocksOf_blank, hflatten]
      exact h.idBuffer
    · rw [blocksOf_blank, List.filterMap_append, List.filterMap_cons, dispatched,
        if_pos (hnil.mp hdata)]
      exact h.events.trans (List.append_nil _).symm
  · rw [Interpreter.dispatch, if_neg hdata]
    refine ⟨⟨[], rfl, ?_⟩, ?_, ?_, ?_, ?_, hretries⟩
    · rw [blocksOf_blank]
      rfl
    · rw [blocksOf_blank]
      rfl
    · rw [blocksOf_blank, hflatten, List.append_nil]
      exact h.idBuffer
    · rw [blocksOf_blank, hflatten]
      exact h.idBuffer
    · have htype : utf8 (if i.event = [] then "message".toList else i.event) =
          if typeOf liberal (blocksOf ls).2 = [] then str "message"
            else typeOf liberal (blocksOf ls).2 := by
        rw [← h.event]
        by_cases hevent : i.event = []
        · rw [if_pos hevent, if_pos (Utf8.encode_eq_nil.mpr hevent)]
          decide
        · rw [if_neg hevent, if_neg (mt Utf8.encode_eq_nil.mp hevent)]
      rw [blocksOf_blank, List.filterMap_append, List.filterMap_cons, dispatched,
        if_neg (mt hnil.mpr hdata), ← htype, List.map_append, h.events, ← hdatas,
        ← utf8_dropLast, hvalues]
      rfl

theorem Meant.readLine (h : Meant ls i) (hline : line ≠ []) :
    Meant (ls ++ [line]) (i.readLine (Utf8.decode line)) := by
  have hsame : (blocksOf (ls ++ [line])).1 = (blocksOf ls).1 := by rw [blocksOf_line ls hline]
  have hopen : (blocksOf (ls ++ [line])).2 = (blocksOf ls).2 ++ [line] := by
    rw [blocksOf_line ls hline]
  rw [readLine_decode i hline, processField_take]
  have hvalue : ∀ f, liberal line = some f → f = .event (utf8 (Utf8.decode (rawField line).2)) ∨
      f = .data (utf8 (Utf8.decode (rawField line).2)) ∨
      f = .id (utf8 (Utf8.decode (rawField line).2)) ∨ ∃ m, f = .retry m :=
    fun f => classify_value
  change Meant (ls ++ [line]) (i.take (Utf8.decode (rawField line).2) (liberal line))
  revert hvalue
  generalize Utf8.decode (rawField line).2 = text
  intro hvalue
  refine ⟨?_, ?_, ?_, ?_, ?_, ?_⟩
  · obtain ⟨values, hvalues, hdatas⟩ := h.data
    rw [hopen, datas_snoc, ← hdatas]
    rcases hf : liberal line with - | (_ | value | _ | _)
    case some.data =>
      obtain rfl : value = utf8 text := by simpa using hvalue _ hf
      refine ⟨values ++ [text], ?_, List.map_append⟩
      rw [buffered, List.flatMap_append, ← buffered, ← hvalues, List.flatMap_singleton]
      rfl
    all_goals exact ⟨values, hvalues, (List.append_nil _).symm⟩
  · rw [hopen, typeOf, types_snoc, List.getLast?_append]
    have hevent := h.event
    rw [typeOf] at hevent
    rcases hf : liberal line with - | (value | _ | _ | _)
    case some.event =>
      obtain rfl : value = utf8 text := by simpa using hvalue _ hf
      rfl
    all_goals exact hevent
  · rw [hsame, hopen, ← List.append_assoc, ids_snoc, List.getLast?_append]
    have hid := h.idBuffer
    rcases hf : liberal line with - | (_ | _ | value | _)
    case some.id =>
      obtain rfl : value = utf8 text := by simpa using hvalue _ hf
      rfl
    all_goals exact hid
  · rw [hsame, ← h.lastId]
    rcases liberal line with - | (_ | _ | _ | _) <;> rfl
  · rw [hsame, ← h.events]
    rcases liberal line with - | (_ | _ | _ | _) <;> rfl
  · rw [retries_snoc, ← h.retries]
    rcases liberal line with - | (_ | _ | _ | _) <;> first
      | rfl
      | exact (List.append_nil _).symm

/-- **The standard in closed form.** -/
theorem meant_foldl (ls : List (List UInt8)) :
    Meant ls ((ls.map Utf8.decode).foldl Interpreter.readLine {}) := by
  induction ls using List.reverseRec with
  | nil => exact ⟨⟨[], rfl, rfl⟩, rfl, rfl, rfl, rfl, rfl⟩
  | append_singleton ls line ih =>
    rw [List.map_append, List.foldl_append]
    by_cases hline : line = []
    · rw [hline]
      exact ih.blank
    · exact ih.readLine hline

/-! ## The two readings -/

theorem splitField_valid (h : validUtf8 line = true) : splitField line = rawField line := by
  rw [splitField, if_pos h]
  rfl

/-- The parser ignores a line that is no UTF-8. -/
theorem strict_invalid (h : ¬ validUtf8 line = true) : strict line = none := by
  rw [strict, splitField, if_neg h]
  rfl

/-- The value of a line that is UTF-8 is UTF-8. -/
theorem lossy_rawField (h : validUtf8 line = true) :
    lossy (rawField line).2 = (rawField line).2 := by
  rcases colon_cases line with hnone | ⟨pre, post, hpre, rfl⟩
  · rw [rawField, splitOnce_none hnone]
    rfl
  · have hpost : lossy post = post := by
      have hcut : lossy (pre ++ colon :: post) = lossy pre ++ colon :: lossy post := by
        rw [lossy, Utf8.decode_ascii pre (by decide) post, Utf8.encode_append, Utf8.encode_cons]
        rfl
      have hcolon : colon ∉ lossy pre := by
        intro hmem
        obtain ⟨x, hx, heq⟩ := Utf8.encode_mem hmem (by decide)
        have hx' : x = ':' := Char.toNat_inj.mp heq
        exact colon_decode hpre (hx' ▸ hx)
      -- both sides are cut at their first colon
      have honce := congrArg splitOnce (hcut.symm.trans (lossy_valid h))
      rw [splitOnce_colon hcolon, splitOnce_colon hpre, Option.some.injEq, Prod.mk.injEq] at honce
      exact honce.2
    rw [rawField, splitOnce_colon hpre]
    show lossy (stripSpace post) = stripSpace post
    unfold stripSpace
    split
    · rw [lossy, Utf8.encode_ascii (by decide), List.cons.injEq] at hpost
      exact hpost.2
    · exact hpost

/-! ## Numbers -/

/-- An ASCII digit. -/
def IsDigit (b : UInt8) : Prop := 48 ≤ b.toNat ∧ b.toNat ≤ 57

/-- The number with the digits behind it. -/
def numeral (n : ℕ) (value : Str) : ℕ := value.foldl (fun n b => n * 10 + (b.toNat - 48)) n

theorem parseDigit_eq {n m : ℕ} {b : UInt8} :
    parseDigit n b = some m ↔ IsDigit b ∧ m = n * 10 + (b.toNat - 48) ∧ m < 2 ^ 64 := by
  have hiff : (decide (48 ≤ b) && decide (b ≤ 57)) = true ↔ IsDigit b := between_iff
  unfold parseDigit
  by_cases hdigit : (decide (48 ≤ b) && decide (b ≤ 57)) = true
  · have hb : IsDigit b := hiff.mp hdigit
    rw [if_pos hdigit]
    dsimp only
    by_cases hlt : n * 10 + (b.toNat - 48) < 2 ^ 64
    · rw [if_pos hlt, Option.some.injEq]
      exact ⟨fun h => ⟨hb, h.symm, h ▸ hlt⟩, fun h => h.2.1.symm⟩
    · rw [if_neg hlt]
      exact ⟨nofun, fun h => absurd (h.2.1 ▸ h.2.2) hlt⟩
  · rw [if_neg hdigit]
    exact ⟨nofun, fun h => absurd (hiff.mpr h.1) hdigit⟩

theorem le_numeral (value : Str) : ∀ n, n ≤ numeral n value := by
  induction value with
  | nil => exact fun n => Nat.le_refl n
  | cons b value ih =>
    intro n
    have h := ih (n * 10 + (b.toNat - 48))
    show n ≤ numeral (n * 10 + (b.toNat - 48)) value
    omega

/-- Overflow is noticed, on the way or at the end. -/
theorem foldlM_parseDigit {m : ℕ} (value : Str) : ∀ n, n < 2 ^ 64 →
    (value.foldlM parseDigit n = some m ↔
      (∀ b ∈ value, IsDigit b) ∧ m = numeral n value ∧ m < 2 ^ 64) := by
  induction value with
  | nil =>
    intro n hn
    show some n = some m ↔ _
    rw [Option.some.injEq]
    exact ⟨fun h => ⟨nofun, h.symm, h ▸ hn⟩, fun h => h.2.1.symm⟩
  | cons b value ih =>
    intro n hn
    rw [List.foldlM_cons, List.forall_mem_cons]
    show (parseDigit n b).bind (fun next => value.foldlM parseDigit next) = some m ↔ _
    rw [Option.bind_eq_some_iff]
    constructor
    · rintro ⟨next, hnext, hrest⟩
      obtain ⟨hb, rfl, hlt⟩ := parseDigit_eq.mp hnext
      obtain ⟨hall, hm, hm'⟩ := (ih _ hlt).mp hrest
      exact ⟨⟨hb, hall⟩, hm, hm'⟩
    · rintro ⟨⟨hb, hall⟩, hm, hm'⟩
      have hle := le_numeral value (n * 10 + (b.toNat - 48))
      have hm₂ : m = numeral (n * 10 + (b.toNat - 48)) value := hm
      have hlt : n * 10 + (b.toNat - 48) < 2 ^ 64 := by omega
      exact ⟨_, parseDigit_eq.mpr ⟨hb, rfl, hlt⟩, (ih _ hlt).mpr ⟨hall, hm, hm'⟩⟩

/-- A plus sign. -/
def plus : UInt8 := 43

theorem parseU64_digits {value : Str} {m : ℕ} (h : value.head? ≠ some plus) :
    parseU64 value = some m ↔
      value ≠ [] ∧ (∀ b ∈ value, IsDigit b) ∧ m = numeral 0 value ∧ m < 2 ^ 64 := by
  have hsame : parseU64 value = if value = [] then none else value.foldlM parseDigit 0 := by
    rw [parseU64]
    rintro rest rfl
    exact h rfl
  rw [hsame]
  by_cases hnil : value = []
  · rw [if_pos hnil]
    exact ⟨nofun, fun h => absurd hnil h.1⟩
  · rw [if_neg hnil, foldlM_parseDigit value 0 (by decide)]
    exact ⟨fun h => ⟨hnil, h⟩, fun h => h.2⟩

theorem isDigit_char {b : UInt8} (hb : b.toNat < 0x80) :
    (Char.ofNat b.toNat).isDigit = true ↔ IsDigit b := by
  have hx : (Char.ofNat b.toNat).val.toNat = b.toNat := Utf8.char_toNat (.inl (by omega))
  rw [Char.isDigit, Bool.and_eq_true, decide_eq_true_eq, decide_eq_true_eq, ge_iff_le,
    UInt32.le_iff_toNat_le, UInt32.le_iff_toNat_le, hx]
  exact Iff.rfl

theorem foldl_decode {value : Str} (h : ∀ b ∈ value, b.toNat < 0x80) (n : ℕ) :
    (Utf8.decode value).foldl (fun n x => n * 10 + (x.toNat - '0'.toNat)) n = numeral n value := by
  induction value generalizing n with
  | nil => rfl
  | cons b value ih =>
    have hb := h b List.mem_cons_self
    have hx : (Char.ofNat b.toNat).toNat = b.toNat := Utf8.char_toNat (.inl (by omega))
    rw [Utf8.decode_cons_ascii hb, List.foldl_cons, hx,
      ih fun c hc => h c (List.mem_cons_of_mem _ hc)]
    rfl

theorem all_isDigit_decode {value : Str} :
    (Utf8.decode value).all Char.isDigit = true ↔ ∀ b ∈ value, IsDigit b := by
  induction value with
  | nil => exact ⟨fun _ => nofun, fun _ => rfl⟩
  | cons b value ih =>
    rw [List.forall_mem_cons]
    by_cases hb : b.toNat < 0x80
    · rw [Utf8.decode_cons_ascii hb, List.all_cons, Bool.and_eq_true, isDigit_char hb, ih]
    · obtain ⟨x, text, hdecode, hwide⟩ := Utf8.decode_cons_wide (Nat.le_of_not_lt hb) value
      rw [hdecode, List.all_cons, Bool.and_eq_true]
      constructor
      · rintro ⟨hx, -⟩
        rw [Char.isDigit, Bool.and_eq_true, decide_eq_true_eq, decide_eq_true_eq] at hx
        have hle : x.toNat ≤ '9'.toNat := UInt32.le_iff_toNat_le.mp hx.2
        have hnine : '9'.toNat = 57 := rfl
        omega
      · rintro ⟨⟨-, hle⟩, -⟩
        omega

/-- The standard takes ASCII digits alone. -/
theorem millis_decode {value : Str} {m : ℕ} : millis (Utf8.decode value) = some m ↔
    value ≠ [] ∧ (∀ b ∈ value, IsDigit b) ∧ m = numeral 0 value ∧ m < 2 ^ 64 := by
  have hcond : (Utf8.decode value ≠ [] ∧ (Utf8.decode value).all Char.isDigit = true) ↔
      value ≠ [] ∧ ∀ b ∈ value, IsDigit b :=
    and_congr (not_congr Utf8.decode_eq_nil) all_isDigit_decode
  unfold millis
  by_cases h : value ≠ [] ∧ ∀ b ∈ value, IsDigit b
  · have hascii : ∀ b ∈ value, b.toNat < 0x80 := by
      intro b hb
      have hle := (h.2 b hb).2
      omega
    rw [if_pos (hcond.mpr h), foldl_decode hascii]
    dsimp only
    by_cases hlt : numeral 0 value < 2 ^ 64
    · rw [if_pos hlt, Option.some.injEq]
      exact ⟨fun hm => ⟨h.1, h.2, hm.symm, hm ▸ hlt⟩, fun hm => hm.2.2.1.symm⟩
    · rw [if_neg hlt]
      exact ⟨nofun, fun hm => absurd (hm.2.2.1 ▸ hm.2.2.2) hlt⟩
  · rw [if_neg (mt hcond.mp h)]
    exact ⟨nofun, fun hm => absurd ⟨hm.1, hm.2.1⟩ h⟩

/-- **Without a sign the two read the same number.** -/
theorem parseU64_millis {value : Str} (h : value.head? ≠ some plus) :
    parseU64 value = millis (Utf8.decode value) := by
  refine Option.ext fun m => ?_
  rw [parseU64_digits h, millis_decode]

/-- The standard takes no sign. -/
theorem millis_plus {value : Str} (h : value.head? = some plus) :
    millis (Utf8.decode value) = none := by
  rw [Option.eq_none_iff_forall_ne_some]
  intro m hm
  obtain ⟨-, hdigits, -⟩ := millis_decode.mp hm
  have hplus := (hdigits plus (List.mem_of_head? h)).1
  exact absurd hplus (by decide)

/-! ## Line by line -/

theorem classify_bind {g : Field → Option Str} (hg : ∀ m, g (.retry m) = none) (name value : Str)
    (n m : Option ℕ) : (classify name value n).bind g = (classify name value m).bind g := by
  have hretry : ∀ k : Option ℕ, (k.map Field.retry).bind g = none := by
    intro k
    cases k with
    | none => rfl
    | some k => exact hg k
  unfold classify
  split_ifs <;> first
    | rfl
    | rw [hretry, hretry]

/-- **The parser reads the lines that are UTF-8 like the standard**, numbers apart. -/
theorem strict_bind {g : Field → Option Str} (hg : ∀ m, g (.retry m) = none)
    (line : List UInt8) :
    (strict line).bind g = if validUtf8 line = true then (liberal line).bind g else none := by
  by_cases hvalid : validUtf8 line = true
  · rw [if_pos hvalid, strict, liberal, splitField_valid hvalid, lossy_rawField hvalid]
    exact classify_bind hg _ _ _ _
  · rw [if_neg hvalid, strict_invalid hvalid]
    rfl

theorem datas_strict (block : List (List UInt8)) :
    datas strict block = datas liberal (block.filter validUtf8) := by
  rw [datas, datas, List.filterMap_filter]
  exact List.filterMap_congr fun line _ => strict_bind (fun _ => rfl) line

theorem types_strict (block : List (List UInt8)) :
    types strict block = types liberal (block.filter validUtf8) := by
  rw [types, types, List.filterMap_filter]
  exact List.filterMap_congr fun line _ => strict_bind (fun _ => rfl) line

theorem ids_strict (block : List (List UInt8)) :
    ids strict block = ids liberal (block.filter validUtf8) := by
  rw [ids, ids, List.filterMap_filter]
  exact List.filterMap_congr fun line _ => strict_bind (fun _ => rfl) line

/-- A retry time with a sign, which the parser takes. -/
def Signed (line : List UInt8) : Prop :=
  (splitField line).1 = str "retry" ∧ (splitField line).2.head? = some plus ∧
    parseU64 (splitField line).2 ≠ none

theorem classify_retry (name value : Str) (n : Option ℕ) :
    (classify name value n).bind Field.retry? = if name = str "retry" then n else none := by
  unfold classify
  by_cases hretry : name = str "retry"
  · rw [hretry, if_neg (by decide), if_neg (by decide), if_neg (by decide), if_pos rfl, if_pos rfl]
    cases n <;> rfl
  · rw [if_neg hretry, if_neg hretry]
    split_ifs <;> rfl

theorem classify_data (name value : Str) (n : Option ℕ) :
    (classify name value n).bind Field.data? = if name = str "data" then some value else none := by
  unfold classify
  by_cases hname : name = str "data"
  · rw [hname, if_neg (by decide), if_pos rfl, if_pos rfl]
    rfl
  · rw [if_neg hname, if_neg hname]
    split_ifs <;> first
      | rfl
      | cases n <;> rfl

theorem classify_event (name value : Str) (n : Option ℕ) :
    (classify name value n).bind Field.event? =
      if name = str "event" then some value else none := by
  unfold classify
  by_cases hname : name = str "event"
  · rw [if_pos hname, if_pos hname]
    rfl
  · rw [if_neg hname, if_neg hname]
    split_ifs <;> first
      | rfl
      | cases n <;> rfl

theorem classify_id (name value : Str) (n : Option ℕ) :
    (classify name value n).bind Field.id? =
      if name = str "id" then if value.contains 0 then none else some value else none := by
  unfold classify
  by_cases hname : name = str "id"
  · rw [hname, if_neg (by decide), if_neg (by decide), if_pos rfl, if_pos rfl]
    cases value.contains 0 <;> rfl
  · rw [if_neg hname, if_neg hname]
    split_ifs <;> first
      | rfl
      | cases n <;> rfl

/-- The parser takes every retry time that the standard takes. -/
theorem retry_liberal {m : ℕ} (h : (liberal line).bind Field.retry? = some m) :
    (strict line).bind Field.retry? = some m := by
  rw [liberal, classify_retry] at h
  split_ifs at h with hname
  -- the line is ASCII, so it is UTF-8
  obtain ⟨-, hdigits, -, -⟩ := millis_decode.mp h
  have hvalue : ∀ b ∈ (rawField line).2, b.toNat < 0x80 := by
    intro b hb
    have hle := (hdigits b hb).2
    omega
  have hname' : ∀ b ∈ str "retry", b.toNat < 0x80 := by decide +kernel
  have hvalid : validUtf8 line = true := by
    refine valid_of_ascii fun b hb => ?_
    rcases rawField_mem hb with hb | hb | rfl | rfl
    · exact hname' b (hname ▸ hb)
    · exact hvalue b hb
    · decide
    · decide
  have hunsigned : (rawField line).2.head? ≠ some plus := by
    intro hplus
    rw [millis_plus hplus] at h
    cases h
  rw [strict, splitField_valid hvalid, classify_retry, if_pos hname, parseU64_millis hunsigned, h]

/-- **Only a sign makes a difference to a retry time.** -/
theorem retry_iff (line : List UInt8) :
    (strict line).bind Field.retry? = (liberal line).bind Field.retry? ↔ ¬ Signed line := by
  by_cases hvalid : validUtf8 line = true
  · rw [strict, liberal, splitField_valid hvalid, classify_retry, classify_retry, Signed,
      splitField_valid hvalid]
    by_cases hname : (rawField line).1 = str "retry"
    · rw [if_pos hname, if_pos hname]
      by_cases hplus : (rawField line).2.head? = some plus
      · rw [millis_plus hplus]
        exact ⟨fun h hsigned => hsigned.2.2 h, fun h => by_contra fun hne => h ⟨hname, hplus, hne⟩⟩
      · rw [parseU64_millis hplus]
        exact ⟨fun _ hsigned => hplus hsigned.2.1, fun _ => rfl⟩
    · rw [if_neg hname, if_neg hname]
      exact ⟨fun _ hsigned => hname hsigned.1, fun _ => rfl⟩
  · have hnone : (liberal line).bind Field.retry? = none := by
      rw [Option.eq_none_iff_forall_ne_some]
      intro m hm
      have hstrict := retry_liberal hm
      rw [strict_invalid hvalid] at hstrict
      cases hstrict
    rw [strict_invalid hvalid, hnone]
    refine ⟨fun _ hsigned => ?_, fun _ => rfl⟩
    have hname := hsigned.1
    rw [splitField, if_neg hvalid] at hname
    exact absurd hname (by decide)

end TokioCronet.Sse
