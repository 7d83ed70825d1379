import TokioCronet.Sse.Blocks

/-!
# The parser and the standard

Both have a closed form over the lines of the stream, so they are compared line by line
and block by block. The parser differs from the standard in three ways: a line that is
no UTF-8 is ignored and not decoded with replacement characters, a retry time may have
a sign, and the id of a block without data is forgotten. Each of them shows unless what
was ignored or forgotten would have been the same again.
-/

namespace TokioCronet.Sse

open Scan Standard SseParser

/-- The lines of a stream. -/
def linesRead (bytes : List UInt8) : List (List UInt8) := (Sse.lines.scan (stripBom bytes)).1

/-- The blocks of a stream that a blank line has ended. -/
def blocksRead (bytes : List UInt8) : List (List (List UInt8)) := (blocksOf (linesRead bytes)).1

variable {bytes : List UInt8} {block : List (List UInt8)} {line : List UInt8}

theorem readInv_push (init : Option Str) (bytes : List UInt8) :
    ReadInv init (linesRead bytes) (({ lastId := init } : SseParser).push bytes).1
      { (({ lastId := init } : SseParser).push bytes).2 with buffer := [] } := by
  have hlines : (linesOf [] [bytes]).1 = linesRead bytes := by
    simp [linesOf, linesRead]
  have h := readInv_readLines init (linesRead bytes)
  rw [push_eq]
  dsimp only
  rw [hlines]
  exact ⟨h.data, h.event, h.id, h.lastId, h.events, h.retries⟩

theorem meant_interpret (bytes : List UInt8) : Meant (linesRead bytes) (interpret bytes) := by
  have hdecoded : decoded bytes = Utf8.decode (stripBom bytes) := by
    by_cases hbom : bom <+: bytes
    · rw [decoded, if_pos hbom, stripBom, if_pos (List.isPrefixOf_iff_prefix.mpr hbom)]
      rfl
    · rw [decoded, if_neg hbom, stripBom_of_not hbom]
  rw [interpret, hdecoded, lines_decode]
  exact meant_foldl (linesRead bytes)

/-! ## Lines have no line feed -/

/-- The lines of the blocks are lines of the stream. -/
theorem mem_blocksOf (ls : List (List UInt8)) :
    (∀ block ∈ (blocksOf ls).1, ∀ line ∈ block, line ∈ ls) ∧
      ∀ line ∈ (blocksOf ls).2, line ∈ ls := by
  induction ls using List.reverseRec with
  | nil => exact ⟨List.forall_mem_nil _, List.forall_mem_nil _⟩
  | append_singleton ls line ih =>
    obtain ⟨hclosed, hopen⟩ := ih
    by_cases hline : line = []
    · rw [hline, blocksOf_blank]
      refine ⟨?_, List.forall_mem_nil _⟩
      intro block hblock l hl
      rcases List.mem_append.mp hblock with hblock | hblock
      · exact List.mem_append_left _ (hclosed block hblock l hl)
      · rw [List.mem_singleton.mp hblock] at hl
        exact List.mem_append_left _ (hopen l hl)
    · rw [blocksOf_line ls hline]
      refine ⟨fun block hblock l hl => List.mem_append_left _ (hclosed block hblock l hl), ?_⟩
      intro l hl
      rcases List.mem_append.mp hl with hl | hl
      · exact List.mem_append_left _ (hopen l hl)
      · exact List.mem_append_right _ hl

theorem unbroken_block (h : block ∈ blocksRead bytes) : ∀ line ∈ block, Unbroken line :=
  fun line hline => unbroken_scan _ line ((mem_blocksOf _).1 block h line hline)

theorem lossy_unbroken {value : Str} (h : Unbroken value) : lf ∉ lossy value := by
  intro hmem
  obtain ⟨x, hx, heq⟩ := Utf8.encode_mem hmem (by decide)
  obtain ⟨b, hb, heq'⟩ := Utf8.decode_mem hx (by rw [heq]; decide)
  exact h b hb (.inl (UInt8.toNat_inj.mp (heq'.trans heq)))

/-- The line feeds of joined values are those between them. -/
theorem count_joinLines {values : List Str} (h : ∀ value ∈ values, lf ∉ value) :
    (joinLines values).count lf = values.length - 1 := by
  induction values using joinLines.induct with
  | case1 => rfl
  | case2 value => exact List.count_eq_zero.mpr (h value List.mem_cons_self)
  | case3 value rest hne ih =>
    rw [joinLines, List.count_append, List.count_cons_self,
      List.count_eq_zero.mpr (h value List.mem_cons_self),
      ih fun v hv => h v (List.mem_cons_of_mem _ hv)]
    · have hpos : 0 < rest.length := List.length_pos_iff.mpr hne
      rw [List.length_cons]
      omega
    · exact hne

/-! ## Blocks that come to the same -/

/-- The line is a data field. -/
def isData (line : List UInt8) : Bool := (rawField line).1 == str "data"

/-- The line is an event field. -/
def isEvent (line : List UInt8) : Bool := (rawField line).1 == str "event"

/-- The value of a line as the standard reads it. -/
def valueOf (line : List UInt8) : Str := lossy (rawField line).2

/-- Nothing of the block is lost for want of UTF-8, or nothing that shows. -/
structure Alike (block : List (List UInt8)) : Prop where
  /-- Its data is UTF-8. -/
  data : ∀ line ∈ block, isData line = true → validUtf8 line = true
  /-- So is the last of its types, if it has data, or it is decoded to the last that is. -/
  event : block.any isData = true → ∀ line, (block.filter isEvent).getLast? = some line →
    validUtf8 line = true ∨
      ∃ line', ((block.filter isEvent).filter validUtf8).getLast? = some line' ∧
        (rawField line').2 = valueOf line

theorem filterMap_test {α β : Type*} {p : α → Bool} {f : α → β} {g : α → Option β}
    (h : ∀ a, g a = if p a = true then some (f a) else none) (l : List α) :
    l.filterMap g = (l.filter p).map f := by
  rw [← List.filterMap_eq_map, List.filterMap_filter]
  exact List.filterMap_congr fun a _ => h a

theorem datas_liberal (block : List (List UInt8)) :
    datas liberal block = (block.filter isData).map valueOf := by
  refine filterMap_test (fun line => ?_) block
  rw [liberal, classify_data]
  exact if_congr beq_iff_eq.symm rfl rfl

theorem types_liberal (block : List (List UInt8)) :
    types liberal block = (block.filter isEvent).map valueOf := by
  refine filterMap_test (fun line => ?_) block
  rw [liberal, classify_event]
  exact if_congr beq_iff_eq.symm rfl rfl

theorem filter_swap {α : Type*} (p q : α → Bool) (l : List α) :
    (l.filter p).filter q = (l.filter q).filter p := by
  rw [List.filter_filter, List.filter_filter]
  exact List.filter_congr fun a _ => Bool.and_comm _ _

theorem datas_taken (block : List (List UInt8)) :
    datas strict block = ((block.filter isData).filter validUtf8).map valueOf := by
  rw [datas_strict, datas_liberal, filter_swap]

theorem types_taken (block : List (List UInt8)) :
    types strict block = ((block.filter isEvent).filter validUtf8).map valueOf := by
  rw [types_strict, types_liberal, filter_swap]

/-- The data of a block comes to the same if it is UTF-8. -/
theorem joinLines_iff (hun : ∀ line ∈ block, Unbroken line)
    (hsome : datas strict block ≠ []) :
    joinLines (datas strict block) = joinLines (datas liberal block) ↔
      ∀ line ∈ block, isData line = true → validUtf8 line = true := by
  have hvalues : ∀ line ∈ block.filter isData, lf ∉ valueOf line := fun line hline =>
    lossy_unbroken (rawField_unbroken (hun line (List.mem_of_mem_filter hline)))
  have hall : (∀ line ∈ block, isData line = true → validUtf8 line = true) ↔
      ∀ line ∈ block.filter isData, validUtf8 line = true := by
    simp only [List.mem_filter, and_imp]
  rw [hall]
  constructor
  · intro heq
    -- as many line feeds, so as many lines
    have hcount := congrArg (List.count lf) heq
    rw [datas_taken] at hsome
    rw [datas_taken, datas_liberal, count_joinLines, count_joinLines, List.length_map,
      List.length_map] at hcount
    · have hpos : 0 < ((block.filter isData).filter validUtf8).length := by
        rw [← List.length_map (f := valueOf)]
        exact List.length_pos_iff.mpr hsome
      have hle := List.length_filter_le validUtf8 (block.filter isData)
      exact List.length_filter_eq_length_iff.mp (by omega)
    · intro value hvalue
      obtain ⟨line, hline, rfl⟩ := List.mem_map.mp hvalue
      exact hvalues line hline
    · intro value hvalue
      obtain ⟨line, hline, rfl⟩ := List.mem_map.mp hvalue
      exact hvalues line (List.mem_of_mem_filter hline)
  · intro hvalid
    rw [datas_taken, datas_liberal, List.filter_eq_self.mpr hvalid]

/-- A value with a replacement in it is not ASCII. -/
theorem ascii_of_lossy {value : Str} (h : ∀ b ∈ lossy value, b.toNat < 0x80) :
    ∀ b ∈ value, b.toNat < 0x80 := by
  refine Utf8.ascii_of_decode fun x hx => ?_
  by_contra hwide
  obtain ⟨b, rest, hbytes⟩ := List.exists_cons_of_ne_nil (String.utf8EncodeChar_ne_nil (c := x))
  have hb : b ∈ String.utf8EncodeChar x := hbytes ▸ List.mem_cons_self
  have hlt := h b (List.mem_flatMap.mpr ⟨x, hx, hb⟩)
  have hge := Utf8.encodeChar_wide (Nat.le_of_not_lt hwide) b hb
  omega

theorem valid_of_value (hevent : isEvent line = true) (h : ∀ b ∈ valueOf line, b.toNat < 0x80) :
    validUtf8 line = true := by
  have hname : (rawField line).1 = str "event" := beq_iff_eq.mp hevent
  have hascii : ∀ b ∈ str "event", b.toNat < 0x80 := by decide +kernel
  refine valid_of_ascii fun b hb => ?_
  rcases rawField_mem hb with hb | hb | rfl | rfl
  · exact hascii b (hname ▸ hb)
  · exact ascii_of_lossy h b hb
  · decide
  · decide

/-- The type that an event gets. -/
def shown (type : Str) : Str := if type = [] then str "message" else type

theorem shown_of_ne {type : Str} (h : type ≠ []) : shown type = type := if_neg h

theorem shown_iff {type type' : Str} (hne : type ≠ []) (hmessage : type ≠ str "message") :
    shown type' = shown type ↔ type' = type := by
  rw [shown_of_ne hne]
  constructor
  · intro h
    by_cases hnil : type' = []
    · rw [shown, if_pos hnil] at h
      exact absurd h.symm hmessage
    · rwa [shown_of_ne hnil] at h
  · rintro rfl
    exact shown_of_ne hne

/-- The type of an event comes to the same if the last of its lines is UTF-8, or is decoded
to what the parser has. -/
theorem type_iff (block : List (List UInt8)) :
    shown (typeOf strict block) = shown (typeOf liberal block) ↔
      ∀ line, (block.filter isEvent).getLast? = some line → validUtf8 line = true ∨
        ∃ line', ((block.filter isEvent).filter validUtf8).getLast? = some line' ∧
          (rawField line').2 = valueOf line := by
  rw [typeOf, typeOf, types_taken, types_liberal, List.getLast?_map, List.getLast?_map]
  cases hlast : (block.filter isEvent).getLast? with
  | none =>
    have hnil : block.filter isEvent = [] := List.getLast?_eq_none_iff.mp hlast
    rw [hnil]
    exact ⟨fun _ _ => (by simp), fun _ => rfl⟩
  | some line =>
    have hmem : line ∈ block.filter isEvent := List.mem_of_getLast? hlast
    have hevent : isEvent line = true := List.of_mem_filter hmem
    have hforall : ∀ P : List UInt8 → Prop, (∀ l, some line = some l → P l) ↔ P line :=
      fun P => ⟨fun h => h line rfl, fun h l hl => Option.some.inj hl ▸ h⟩
    rw [hforall, Option.map_some, Option.getD_some]
    by_cases hvalid : validUtf8 line = true
    · -- the parser has the same last line
      obtain ⟨init, hinit⟩ := List.getLast?_eq_some_iff.mp hlast
      rw [hinit, List.filter_append, List.filter_cons_of_pos hvalid, List.filter_nil,
        List.getLast?_concat]
      exact ⟨fun _ => .inl hvalid, fun _ => rfl⟩
    · have hne : valueOf line ≠ [] := fun hnil =>
        hvalid (valid_of_value hevent (by rw [hnil]; exact List.forall_mem_nil _))
      have hmessage : valueOf line ≠ str "message" := fun heq =>
        hvalid (valid_of_value hevent (by rw [heq]; decide +kernel))
      rw [shown_iff hne hmessage, or_iff_right hvalid]
      cases hkept : ((block.filter isEvent).filter validUtf8).getLast? with
      | none =>
        constructor
        · intro h
          exact absurd h.symm hne
        · rintro ⟨line', hline', -⟩
          cases hline'
      | some line' =>
        have hvalue : valueOf line' = (rawField line').2 :=
          lossy_rawField (List.of_mem_filter (List.mem_of_getLast? hkept))
        rw [Option.map_some, Option.getD_some, hvalue]
        constructor
        · exact fun h => ⟨line', rfl, h⟩
        · rintro ⟨l, hl, h⟩
          exact Option.some.inj hl ▸ h

/-- **A block comes to the same exactly if it is alike.** -/
theorem dispatched_iff (hun : ∀ line ∈ block, Unbroken line) :
    dispatched strict block = dispatched liberal block ↔ Alike block := by
  have hnone : datas liberal block = [] ↔ ¬ block.any isData = true := by
    rw [datas_liberal, List.map_eq_nil_iff, List.filter_eq_nil_iff, List.any_eq_true]
    push Not
    exact Iff.rfl
  by_cases hany : block.any isData = true
  · have hliberal : datas liberal block ≠ [] := fun h => hnone.mp h hany
    by_cases hstrict : datas strict block = []
    · rw [dispatched, if_pos hstrict, dispatched, if_neg hliberal]
      refine ⟨(by simp), fun h => ?_⟩
      have hfilter : (block.filter isData).filter validUtf8 = block.filter isData :=
        List.filter_eq_self.mpr fun line hline =>
          h.data line (List.mem_of_mem_filter hline) (List.of_mem_filter hline)
      rw [datas_taken, hfilter, ← datas_liberal] at hstrict
      exact absurd hstrict hliberal
    · rw [dispatched, if_neg hstrict, dispatched, if_neg hliberal, Option.some.injEq,
        Prod.mk.injEq, joinLines_iff hun hstrict]
      show shown (typeOf strict block) = shown (typeOf liberal block) ∧ _ ↔ _
      rw [type_iff]
      exact ⟨fun h => ⟨h.2, fun _ => h.1⟩, fun h => ⟨h.event hany, h.data⟩⟩
  · have hliberal : datas liberal block = [] := hnone.mpr hany
    have hnodata : block.filter isData = [] := by
      rw [datas_liberal, List.map_eq_nil_iff] at hliberal
      exact hliberal
    have hstrict : datas strict block = [] := by
      rw [datas_taken, hnodata]
      rfl
    rw [dispatched, if_pos hstrict, dispatched, if_pos hliberal]
    refine ⟨fun _ => ⟨?_, fun h => absurd h hany⟩, fun _ => rfl⟩
    intro line hline hdata
    exact absurd (List.any_eq_true.mpr ⟨line, hline, hdata⟩) hany

/-! ## Events and retry times -/

/-- Where one function gives something the other does too, so equal results are equal
one by one. -/
theorem filterMap_eq_iff {α β : Type*} {f g : α → Option β} {l : List α}
    (h : ∀ a ∈ l, (f a).isSome = true → (g a).isSome = true) :
    l.filterMap f = l.filterMap g ↔ ∀ a ∈ l, f a = g a := by
  refine ⟨fun heq => ?_, List.filterMap_congr⟩
  induction l with
  | nil => exact List.forall_mem_nil _
  | cons a l ih =>
    rw [List.forall_mem_cons] at h
    obtain ⟨ha, hl⟩ := h
    rw [List.forall_mem_cons]
    rw [List.filterMap_cons, List.filterMap_cons] at heq
    cases hf : f a with
    | none =>
      rw [hf] at heq
      cases hg : g a with
      | none =>
        rw [hg] at heq
        exact ⟨rfl, ih hl heq⟩
      | some b =>
        -- then the other list is longer
        rw [hg] at heq
        have hlength : (l.filterMap f).length = (b :: l.filterMap g).length :=
          congrArg List.length heq
        have hle : l.countP (fun x => (f x).isSome) ≤ l.countP (fun x => (g x).isSome) :=
          List.countP_mono_left hl
        rw [List.length_cons, List.length_filterMap_eq_countP,
          List.length_filterMap_eq_countP] at hlength
        omega
    | some b =>
      rw [hf] at heq
      obtain ⟨b', hg⟩ := Option.isSome_iff_exists.mp (ha (by rw [hf]; rfl))
      rw [hg, List.cons.injEq] at heq
      rw [hg, heq.1]
      exact ⟨rfl, ih hl heq.2⟩

/-- Data that the parser has the standard has too. -/
theorem dispatched_isSome (h : (dispatched strict block).isSome = true) :
    (dispatched liberal block).isSome = true := by
  unfold dispatched at h ⊢
  by_cases hliberal : datas liberal block = []
  · have hnodata : block.filter isData = [] := by
      rw [datas_liberal, List.map_eq_nil_iff] at hliberal
      exact hliberal
    rw [if_pos (by rw [datas_taken, hnodata]; rfl)] at h
    cases h
  · rw [if_neg hliberal]
    rfl

/-- The parser dispatches the events of the standard, and the same retry times. -/
def Interprets (init : Option Str) (bytes : List UInt8) : Prop :=
  typed (({ lastId := init } : SseParser).push bytes).1 =
      (interpret bytes).events.map (Prod.map utf8 utf8) ∧
    retriesOf (({ lastId := init } : SseParser).push bytes).1 = (interpret bytes).retries

/-- The stream is UTF-8 wherever that shows, and no retry time has a sign. -/
structure Plain (bytes : List UInt8) : Prop where
  /-- Both readings have the same fields of each block. -/
  blocks : ∀ block ∈ blocksRead bytes, Alike block
  /-- No retry time begins with a sign. -/
  retries : ∀ line ∈ linesRead bytes, ¬ Signed line

/-- **The parser follows the standard exactly where the stream is plain.** -/
theorem interprets_iff (init : Option Str) (bytes : List UInt8) :
    Interprets init bytes ↔ Plain bytes := by
  have hparser := readInv_push init bytes
  have hstandard := meant_interpret bytes
  have hevents : typed (({ lastId := init } : SseParser).push bytes).1 =
      (interpret bytes).events.map (Prod.map utf8 utf8) ↔
        ∀ block ∈ blocksRead bytes, Alike block := by
    rw [hparser.events, hstandard.events, filterMap_eq_iff fun _ _ => dispatched_isSome]
    exact forall₂_congr fun block hblock => dispatched_iff (unbroken_block hblock)
  have hretries : retriesOf (({ lastId := init } : SseParser).push bytes).1 =
      (interpret bytes).retries ↔ ∀ line ∈ linesRead bytes, ¬ Signed line := by
    rw [hparser.retries, hstandard.retries, eq_comm, retries, retries, filterMap_eq_iff]
    · exact forall₂_congr fun line _ => eq_comm.trans (retry_iff line)
    · intro line _ hsome
      obtain ⟨m, hm⟩ := Option.isSome_iff_exists.mp hsome
      rw [retry_liberal hm]
      rfl
  rw [Interprets, hevents, hretries]
  exact ⟨fun h => ⟨h.1, h.2⟩, fun h => ⟨h.blocks, h.retries⟩⟩

/-- **Data that is no UTF-8 is lost, and a sign is taken.** -/
theorem data_not_decoded :
    ¬ Interprets none (str "data:" ++ [0xFF, lf, lf]) ∧ ¬ Interprets none (str "retry:+5\n") := by
  unfold Interprets
  decide +kernel

/-! ## The last event id -/

/-- The line is an id field that counts. -/
def isId (line : List UInt8) : Bool :=
  (rawField line).1 == str "id" && !(valueOf line).contains 0

/-- The ids of the blocks, each with its block. -/
def idLines (blocks : List (List (List UInt8))) : List (List (List UInt8) × List UInt8) :=
  blocks.flatMap fun block => (block.filter isId).map fun line => (block, line)

/-- An id that is UTF-8, in a block with data that is. -/
def kept (p : List (List UInt8) × List UInt8) : Bool :=
  validUtf8 p.2 && p.1.any fun line => isData line && validUtf8 line

/-- The value of an id with its block. -/
def idOf (p : List (List UInt8) × List UInt8) : Str := valueOf p.2

theorem ids_liberal (block : List (List UInt8)) :
    ids liberal block = (block.filter isId).map valueOf := by
  refine filterMap_test (fun line => ?_) block
  have hiff : isId line = true ↔
      (rawField line).1 = str "id" ∧ ¬ (valueOf line).contains 0 = true := by
    rw [isId, Bool.and_eq_true, beq_iff_eq, Bool.not_eq_true', Bool.not_eq_true]
  rw [liberal, classify_id]
  show (if (rawField line).1 = str "id" then
    if (valueOf line).contains 0 = true then none else some (valueOf line) else none) = _
  by_cases hname : (rawField line).1 = str "id"
  · rw [if_pos hname]
    by_cases hnul : (valueOf line).contains 0 = true
    · rw [if_pos hnul, if_neg fun h => (hiff.mp h).2 hnul]
    · rw [if_neg hnul, if_pos (hiff.mpr ⟨hname, hnul⟩)]
  · rw [if_neg hname, if_neg fun h => hname (hiff.mp h).1]

theorem ids_flatten (blocks : List (List (List UInt8))) :
    ids liberal blocks.flatten = (idLines blocks).map idOf := by
  induction blocks with
  | nil => rfl
  | cons block blocks ih =>
    rw [List.flatten_cons, ids, List.filterMap_append, ← ids, ← ids, ih, ids_liberal]
    show _ = (((block.filter isId).map fun line => (block, line)) ++ idLines blocks).map idOf
    rw [List.map_append, List.map_map]
    rfl

/-- What the parser remembers: the ids that it keeps. -/
theorem ids_kept (blocks : List (List (List UInt8))) :
    (blocks.filter fun block => datas strict block ≠ []).flatMap (ids strict) =
      ((idLines blocks).filter kept).map idOf := by
  induction blocks with
  | nil => rfl
  | cons block blocks ih =>
    have hdata : decide (datas strict block ≠ []) =
        block.any fun line => isData line && validUtf8 line := by
      rw [datas_taken, Bool.eq_iff_iff, decide_eq_true_eq, ne_eq, List.map_eq_nil_iff,
        List.filter_filter, List.filter_eq_nil_iff, List.any_eq_true]
      push Not
      simp only [Bool.and_comm]
    have hids : ids strict block = ((block.filter isId).filter validUtf8).map valueOf := by
      rw [ids_strict, ids_liberal, filter_swap]
    rw [idLines, List.flatMap_cons, List.filter_append, List.map_append, ← idLines, ← ih]
    by_cases h : (block.any fun line => isData line && validUtf8 line) = true
    · have hkept : ((block.filter isId).map fun line => (block, line)).filter kept =
          ((block.filter isId).filter validUtf8).map fun line => (block, line) := by
        rw [List.filter_map]
        refine congrArg _ (List.filter_congr fun line _ => ?_)
        show (validUtf8 line && block.any _) = validUtf8 line
        rw [h, Bool.and_true]
      rw [List.filter_cons, if_pos (hdata.trans h), List.flatMap_cons, hids, hkept, List.map_map]
      rfl
    · have hnone : ((block.filter isId).map fun line => (block, line)).filter kept = [] := by
        rw [List.filter_eq_nil_iff]
        intro p hp hk
        obtain ⟨line, -, rfl⟩ := List.mem_map.mp hp
        exact h (Bool.and_eq_true _ _ |>.mp hk).2
      rw [List.filter_cons, if_neg (by rw [hdata]; exact h), hnone]
      rfl

/-- The last id that the parser keeps, or the first one. -/
def keptId (init : Option Str) (bytes : List UInt8) : Option Str :=
  (((idLines (blocksRead bytes)).filter kept).getLast?.map idOf).or init

/-- The parser is left with the id that the standard resumes from. -/
def Resumes (init : Option Str) (bytes : List UInt8) : Prop :=
  (({ lastId := init } : SseParser).push bytes).2.lastId =
    ((interpret bytes).lastId.map utf8).or init

/-- The last id of the stream is kept, or what is kept happens to be the same. -/
def Remembered (init : Option Str) (bytes : List UInt8) : Prop :=
  ∀ p, (idLines (blocksRead bytes)).getLast? = some p →
    kept p = true ∨ keptId init bytes = some (idOf p)

/-- **The last id is the standard's exactly if it is kept.** -/
theorem resumes_iff (init : Option Str) (bytes : List UInt8) :
    Resumes init bytes ↔ Remembered init bytes := by
  have hparser : (({ lastId := init } : SseParser).push bytes).2.lastId = keptId init bytes := by
    rw [keptId, ← List.getLast?_map, ← ids_kept]
    exact (readInv_push init bytes).lastId
  have hstandard : (interpret bytes).lastId.map utf8 =
      (idLines (blocksRead bytes)).getLast?.map idOf := by
    rw [← List.getLast?_map, ← ids_flatten]
    exact (meant_interpret bytes).lastId
  rw [Resumes, hparser, hstandard, Remembered]
  cases hlast : (idLines (blocksRead bytes)).getLast? with
  | none =>
    have hnil : idLines (blocksRead bytes) = [] := List.getLast?_eq_none_iff.mp hlast
    rw [keptId, hnil]
    exact ⟨fun _ _ => nofun, fun _ => rfl⟩
  | some p =>
    rw [Option.map_some, Option.some_or]
    constructor
    · intro h q hq
      rw [← Option.some.inj hq]
      exact .inr h
    · intro h
      rcases h p rfl with hkept | hsame
      · -- nothing that is kept comes behind it
        obtain ⟨before, hbefore⟩ := List.getLast?_eq_some_iff.mp hlast
        rw [keptId, hbefore, List.filter_append, List.filter_cons_of_pos hkept, List.filter_nil,
          List.getLast?_concat]
        rfl
      · exact hsame

/-- **The id of a block without data is forgotten.** -/
theorem id_forgotten : ¬ Resumes none (str "id: 7\n\n") := by
  unfold Resumes
  decide +kernel

end TokioCronet.Sse
