import TokioCronet.Lib.Utf8
import TokioCronet.Sse.Chunks

/-!
# The event-stream format

What a stream means by the event-stream standard: its bytes are decoded, with
replacement characters where they are no UTF-8, the text is cut into lines, and the
lines are read one after another. The parser works on bytes and never decodes, so
the standard is brought down to bytes here: a line of the text is a line of the
bytes, decoded, and so are the name and the value of its field.
-/

namespace TokioCronet.Sse

open Scan

namespace Standard

/-- Decoded text. -/
abbrev Text := List Char

/-- The bytes decoded, without one byte-order mark. -/
def decoded (bytes : List UInt8) : Text :=
  Utf8.decode (if bom <+: bytes then bytes.drop bom.length else bytes)

/-- A character that ends a line. -/
def IsEnd (x : Char) : Prop := x = '\r' ∨ x = '\n'

instance : DecidablePred IsEnd :=
  fun x => inferInstanceAs (Decidable (x = '\r' ∨ x = '\n'))

/-- The lines of the text; one that has not ended is discarded. -/
def lines (line : Text) : Text → List Text
  | [] => []
  | '\r' :: '\n' :: rest => line :: lines [] rest
  | x :: rest => if IsEnd x then line :: lines [] rest else lines (line ++ [x]) rest

/-- What is before the first colon, and what is behind it. -/
def cutColon : Text → Text × Option Text
  | [] => ([], none)
  | x :: rest => if x = ':' then ([], some rest) else (x :: (cutColon rest).1, (cutColon rest).2)

/-- The name of a field and its value, without one space before it. -/
def field (line : Text) : Text × Text :=
  match cutColon line with
  | (name, none) => (name, [])
  | (name, some value) => (name, if value.head? = some ' ' then value.tail else value)

/-- A number of milliseconds, in ASCII digits. -/
def millis (value : Text) : Option ℕ :=
  if value ≠ [] ∧ value.all Char.isDigit then
    let n := value.foldl (fun n x => n * 10 + (x.toNat - '0'.toNat)) 0
    if n < 2 ^ 64 then some n else none
  else none

/-- The buffers of the interpretation, and what it has come to so far. -/
structure Interpreter where
  data : Text := []
  event : Text := []
  idBuffer : Option Text := none
  lastId : Option Text := none
  events : List (Text × Text) := []
  retries : List ℕ := []
  deriving DecidableEq

namespace Interpreter

/-- A blank line. -/
def dispatch (i : Interpreter) : Interpreter :=
  if i.data = [] then { i with event := [], lastId := i.idBuffer }
  else
    -- the last line feed of the data is no part of it
    let type := if i.event = [] then "message".toList else i.event
    { i with data := [], event := [], lastId := i.idBuffer,
             events := i.events ++ [(type, i.data.dropLast)] }

/-- Processing a field. -/
def processField (i : Interpreter) (name value : Text) : Interpreter :=
  if name = "event".toList then { i with event := value }
  else if name = "data".toList then { i with data := i.data ++ (value ++ ['\n']) }
  else if name = "id".toList then
    if value.contains '\x00' then i else { i with idBuffer := some value }
  else if name = "retry".toList then
    match millis value with
    | some n => { i with retries := i.retries ++ [n] }
    | none => i
  else i

/-- Reading a line. -/
def readLine (i : Interpreter) (line : Text) : Interpreter :=
  if line = [] then i.dispatch
  else if line.head? = some ':' then i
  else i.processField (field line).1 (field line).2

end Interpreter

/-- What the stream means. -/
def interpret (bytes : List UInt8) : Interpreter :=
  (lines [] (decoded bytes)).foldl Interpreter.readLine {}

/-! ## Lines -/

variable {bytes pre post : List UInt8} {text rest line : Text} {x : Char}

/-- What follows a line that ended at `x`. -/
def afterEnd (x : Char) (rest : Text) : Text :=
  if x = '\r' ∧ rest.head? = some '\n' then rest.tail else rest

theorem lines_cons (hx : ¬ IsEnd x) : lines line (x :: rest) = lines (line ++ [x]) rest := by
  have hcr : x ≠ '\r' := fun h => hx (.inl h)
  rw [lines.eq_3 line x rest (fun _ h _ => hcr h), if_neg hx]

theorem lines_end (hx : IsEnd x) : lines line (x :: rest) = line :: lines [] (afterEnd x rest) := by
  by_cases hcrlf : x = '\r' ∧ rest.head? = some '\n'
  · obtain ⟨rfl, hhead⟩ := hcrlf
    obtain ⟨tail, rfl⟩ : ∃ tail, rest = '\n' :: tail := by
      cases rest with
      | nil => cases hhead
      | cons y tail =>
        rw [List.head?_cons, Option.some.injEq] at hhead
        exact ⟨tail, by rw [hhead]⟩
    rfl
  · rw [afterEnd, if_neg hcrlf, lines.eq_3, if_pos hx]
    rintro tail rfl rfl
    exact hcrlf ⟨rfl, rfl⟩

/-- A line runs on to its first end. -/
theorem lines_append (htext : ∀ x ∈ text, ¬ IsEnd x) (hx : IsEnd x) :
    lines line (text ++ x :: rest) = (line ++ text) :: lines [] (afterEnd x rest) := by
  induction text generalizing line with
  | nil => rw [List.nil_append, List.append_nil, lines_end hx]
  | cons y text ih =>
    rw [List.cons_append, lines_cons (htext y List.mem_cons_self),
      ih fun z hz => htext z (List.mem_cons_of_mem _ hz), List.append_assoc, List.singleton_append]

theorem lines_unended (htext : ∀ x ∈ text, ¬ IsEnd x) : lines line text = [] := by
  induction text generalizing line with
  | nil => rfl
  | cons y text ih =>
    rw [lines_cons (htext y List.mem_cons_self), ih fun z hz => htext z (List.mem_cons_of_mem _ hz)]

/-- Bytes that end no line are decoded to text that ends none. -/
theorem decode_unbroken (h : Unbroken bytes) : ∀ x ∈ Utf8.decode bytes, ¬ IsEnd x := by
  intro x hx hend
  have hascii : x.toNat < 0x80 := by rcases hend with rfl | rfl <;> decide
  obtain ⟨b, hb, heq⟩ := Utf8.decode_mem hx hascii
  refine h b hb ?_
  rcases hend with rfl | rfl
  · exact .inr (UInt8.toNat_inj.mp heq)
  · exact .inl (UInt8.toNat_inj.mp heq)

theorem head?_decode {b : UInt8} (hb : b.toNat < 0x80) :
    (Utf8.decode bytes).head? = some (Char.ofNat b.toNat) ↔ bytes.head? = some b := by
  cases bytes with
  | nil => exact ⟨nofun, nofun⟩
  | cons c bytes =>
    rw [List.head?_cons, Option.some.injEq]
    by_cases hc : c.toNat < 0x80
    · rw [Utf8.decode_cons_ascii hc, List.head?_cons, Option.some.injEq]
      constructor
      · intro h
        have heq := congrArg Char.toNat h
        rw [Utf8.char_toNat (.inl (by omega)), Utf8.char_toNat (.inl (by omega))] at heq
        exact UInt8.toNat_inj.mp heq
      · rintro rfl
        rfl
    · obtain ⟨x, text, hdecode, hwide⟩ := Utf8.decode_cons_wide (Nat.le_of_not_lt hc) bytes
      rw [hdecode, List.head?_cons, Option.some.injEq]
      constructor
      · rintro rfl
        rw [Utf8.char_toNat (.inl (by omega))] at hwide
        omega
      · rintro rfl
        exact absurd hb hc

theorem tail_decode {b : UInt8} (hb : b.toNat < 0x80) (h : bytes.head? = some b) :
    (Utf8.decode bytes).tail = Utf8.decode bytes.tail := by
  cases bytes with
  | nil => cases h
  | cons c bytes =>
    rw [List.head?_cons, Option.some.injEq] at h
    rw [h, Utf8.decode_cons_ascii hb]
    rfl

theorem isEnd_decode {eol : UInt8} (h : IsEol eol) :
    eol.toNat < 0x80 ∧ IsEnd (Char.ofNat eol.toNat) ∧
      afterEnd (Char.ofNat eol.toNat) (Utf8.decode post) = Utf8.decode (afterEol eol post) := by
  rcases h with rfl | rfl
  · refine ⟨by decide, .inr rfl, ?_⟩
    rw [afterEnd, afterEol, if_neg fun h => absurd h.1 (by decide),
      if_neg fun h => absurd h.1 (by decide)]
  · refine ⟨by decide, .inl rfl, ?_⟩
    have hhead : (Utf8.decode post).head? = some '\n' ↔ post.head? = some lf :=
      head?_decode (b := lf) (by decide)
    by_cases hlf : post.head? = some lf
    · rw [afterEnd, afterEol, if_pos ⟨rfl, hhead.mpr hlf⟩, if_pos ⟨rfl, hlf⟩,
        tail_decode (b := lf) (by decide) hlf]
    · rw [afterEnd, afterEol, if_neg fun h => hlf (hhead.mp h.2), if_neg fun h => hlf h.2]

/-- **The lines of the text are the lines of the bytes.** -/
theorem lines_decode (bytes : List UInt8) :
    lines [] (Utf8.decode bytes) = (Sse.lines.scan bytes).1.map Utf8.decode := by
  induction h : bytes.length using Nat.strongRecOn generalizing bytes with
  | ind n ih =>
    rcases unbroken_or_eol bytes with hun | ⟨pre, eol, post, hpre, heol, rfl⟩
    · rw [scan_unbroken hun, lines_unended (decode_unbroken hun)]
      rfl
    · obtain ⟨hascii, hend, hafter⟩ : eol.toNat < 0x80 ∧ IsEnd (Char.ofNat eol.toNat) ∧
          afterEnd (Char.ofNat eol.toNat) (Utf8.decode post) = Utf8.decode (afterEol eol post) :=
        isEnd_decode heol
      have hcut : Sse.lines.cut (pre ++ eol :: post) = some (pre, afterEol eol post) :=
        lines_cut_eol hpre heol
      have hlt := Cutter.shorter hcut
      rw [Utf8.decode_ascii pre hascii post, lines_append (decode_unbroken hpre) hend, hafter,
        scan_eol hpre heol, ih _ (h ▸ hlt) _ rfl]
      rfl

/-! ## Fields -/

/-- The name and the value of a field, as bytes. -/
def rawField (line : List UInt8) : Str × Str :=
  match splitOnce line with
  | some (field, value) => (field, stripSpace value)
  | none => (line, [])

/-- The bytes of a value, with replacement characters where it is no UTF-8. -/
def lossy (value : Str) : Str := Utf8.encode (Utf8.decode value)

theorem splitOnce_colon (h : colon ∉ pre) :
    splitOnce (pre ++ colon :: post) = some (pre, post) := by
  have hnone : pre.findIdx? (· == colon) = none := by
    rw [List.findIdx?_eq_none_iff]
    intro b hb
    have hne : b ≠ colon := fun heq => h (heq ▸ hb)
    simpa using hne
  have hidx : (pre ++ colon :: post).findIdx? (· == colon) = some pre.length := by
    rw [List.findIdx?_append, hnone, List.findIdx?_cons]
    simp
  rw [splitOnce, hidx, Option.map_some, List.take_left, List.drop_append]
  simp

theorem splitOnce_none (h : colon ∉ pre) : splitOnce pre = none := by
  rw [splitOnce, Option.map_eq_none_iff, List.findIdx?_eq_none_iff]
  intro b hb
  have hne : b ≠ colon := fun heq => h (heq ▸ hb)
  simpa using hne

theorem cutColon_append {value : Text} (h : ':' ∉ text) :
    cutColon (text ++ ':' :: value) = (text, some value) := by
  induction text with
  | nil => rfl
  | cons x text ih =>
    rw [List.mem_cons, not_or] at h
    rw [List.cons_append, cutColon, if_neg (Ne.symm h.1), ih h.2]

theorem cutColon_none (h : ':' ∉ text) : cutColon text = (text, none) := by
  induction text with
  | nil => rfl
  | cons x text ih =>
    rw [List.mem_cons, not_or] at h
    rw [cutColon, if_neg (Ne.symm h.1), ih h.2]

theorem colon_decode (h : colon ∉ bytes) : ':' ∉ Utf8.decode bytes := by
  intro hmem
  obtain ⟨b, hb, heq⟩ := Utf8.decode_mem hmem (by decide)
  have hcolon : b = colon := UInt8.toNat_inj.mp heq
  exact h (hcolon ▸ hb)

/-- A line has no colon, or a first one. -/
theorem colon_cases (line : List UInt8) :
    colon ∉ line ∨ ∃ pre post, colon ∉ pre ∧ line = pre ++ colon :: post := by
  by_cases h : colon ∈ line
  · obtain ⟨pre, post, rfl, hpre⟩ := List.eq_append_cons_of_mem h
    exact .inr ⟨pre, post, hpre, rfl⟩
  · exact .inl h

theorem stripSpace_decode (value : Str) :
    (if (Utf8.decode value).head? = some ' ' then (Utf8.decode value).tail else Utf8.decode value) =
      Utf8.decode (stripSpace value) := by
  have hhead : (Utf8.decode value).head? = some ' ' ↔ value.head? = some 32 :=
    head?_decode (b := 32) (by decide)
  by_cases hspace : value.head? = some 32
  · rw [if_pos (hhead.mpr hspace), tail_decode (b := 32) (by decide) hspace]
    cases value with
    | nil => cases hspace
    | cons b rest =>
      rw [List.head?_cons, Option.some.injEq] at hspace
      rw [hspace]
      rfl
  · rw [if_neg fun h => hspace (hhead.mp h)]
    unfold stripSpace
    split
    · exact absurd rfl hspace
    · rfl

/-- **The field of a decoded line.** -/
theorem field_decode (line : List UInt8) :
    field (Utf8.decode line) = (Utf8.decode (rawField line).1, Utf8.decode (rawField line).2) := by
  rcases colon_cases line with hnone | ⟨pre, post, hpre, rfl⟩
  · rw [field, cutColon_none (colon_decode hnone), rawField, splitOnce_none hnone]
    rfl
  · have hdecode : Utf8.decode (pre ++ colon :: post) =
        Utf8.decode pre ++ ':' :: Utf8.decode post := Utf8.decode_ascii pre (by decide) post
    rw [field, hdecode, cutColon_append (colon_decode hpre), rawField, splitOnce_colon hpre]
    dsimp only
    rw [stripSpace_decode]

/-- A line is made of its field, a colon and a space. -/
theorem rawField_mem {line : List UInt8} {b : UInt8} (h : b ∈ line) :
    b ∈ (rawField line).1 ∨ b ∈ (rawField line).2 ∨ b = colon ∨ b = 32 := by
  rcases colon_cases line with hnone | ⟨pre, post, hpre, rfl⟩
  · rw [rawField, splitOnce_none hnone]
    exact .inl h
  · rw [rawField, splitOnce_colon hpre]
    show b ∈ pre ∨ b ∈ stripSpace post ∨ b = colon ∨ b = 32
    rcases List.mem_append.mp h with h | h
    · exact .inl h
    rcases List.mem_cons.mp h with h | h
    · exact .inr (.inr (.inl h))
    · unfold stripSpace
      split
      · rcases List.mem_cons.mp h with h | h
        · exact .inr (.inr (.inr h))
        · exact .inr (.inl h)
      · exact .inr (.inl h)

theorem rawField_unbroken {line : List UInt8} (h : Unbroken line) : Unbroken (rawField line).2 := by
  rcases colon_cases line with hnone | ⟨pre, post, hpre, rfl⟩
  · rw [rawField, splitOnce_none hnone]
    exact fun _ => nofun
  · rw [rawField, splitOnce_colon hpre]
    show Unbroken (stripSpace post)
    intro b hb
    refine h b (List.mem_append_right _ (List.mem_cons_of_mem _ ?_))
    unfold stripSpace at hb
    split at hb
    · exact List.mem_cons_of_mem _ hb
    · exact hb

/-! ## What the parser takes for UTF-8 -/

theorem between_iff {low high b : UInt8} : (decide (low ≤ b) && decide (b ≤ high)) = true ↔
    low.toNat ≤ b.toNat ∧ b.toNat ≤ high.toNat := by
  rw [Bool.and_eq_true, decide_eq_true_eq, decide_eq_true_eq, UInt8.le_iff_toNat_le,
    UInt8.le_iff_toNat_le]

theorem continues_iff {b : UInt8} : continues b = true ↔ 0x80 ≤ b.toNat ∧ b.toNat ≤ 0xBF :=
  between_iff

theorem takes_three {a b : UInt8} (h : (if a = 0xE0 then decide (0xA0 ≤ b) && decide (b ≤ 0xBF)
    else if a = 0xED then decide (0x80 ≤ b) && decide (b ≤ 0x9F) else continues b) = true) :
    (Utf8.Begun.three a.toNat).Takes b := by
  show (if a.toNat = 0xE0 then 0xA0 else 0x80) ≤ b.toNat ∧
    b.toNat ≤ if a.toNat = 0xED then 0x9F else 0xBF
  by_cases hlow : a = 0xE0
  · rw [if_pos hlow] at h
    rw [hlow]
    exact between_iff.mp h
  · have hlow' : a.toNat ≠ 0xE0 := fun heq => hlow (UInt8.toNat_inj.mp heq)
    rw [if_neg hlow] at h
    rw [if_neg hlow']
    by_cases hhigh : a = 0xED
    · rw [if_pos hhigh] at h
      rw [hhigh]
      exact between_iff.mp h
    · have hhigh' : a.toNat ≠ 0xED := fun heq => hhigh (UInt8.toNat_inj.mp heq)
      rw [if_neg hhigh] at h
      rw [if_neg hhigh']
      exact continues_iff.mp h

theorem takes_four {a b : UInt8} (h : (if a = 0xF0 then decide (0x90 ≤ b) && decide (b ≤ 0xBF)
    else if a = 0xF4 then decide (0x80 ≤ b) && decide (b ≤ 0x8F) else continues b) = true) :
    (Utf8.Begun.four a.toNat).Takes b := by
  show (if a.toNat = 0xF0 then 0x90 else 0x80) ≤ b.toNat ∧
    b.toNat ≤ if a.toNat = 0xF4 then 0x8F else 0xBF
  by_cases hlow : a = 0xF0
  · rw [if_pos hlow] at h
    rw [hlow]
    exact between_iff.mp h
  · have hlow' : a.toNat ≠ 0xF0 := fun heq => hlow (UInt8.toNat_inj.mp heq)
    rw [if_neg hlow] at h
    rw [if_neg hlow']
    by_cases hhigh : a = 0xF4
    · rw [if_pos hhigh] at h
      rw [hhigh]
      exact between_iff.mp h
    · have hhigh' : a.toNat ≠ 0xF4 := fun heq => hhigh (UInt8.toNat_inj.mp heq)
      rw [if_neg hhigh] at h
      rw [if_neg hhigh']
      exact continues_iff.mp h

/-- **Bytes that the parser takes for UTF-8 are what they are decoded to.** -/
theorem lossy_valid (h : validUtf8 bytes = true) : lossy bytes = bytes := by
  induction bytes using validUtf8.induct with
  | case1 => rfl
  | case2 a rest ha ih =>
    unfold validUtf8 at h
    rw [if_pos ha] at h
    rw [lossy, Utf8.encode_ascii (UInt8.lt_iff_toNat_lt.mp ha)]
    exact congrArg (a :: ·) (ih h)
  | case3 a ha htwo b rest ih =>
    rw [validUtf8, if_neg ha, if_pos htwo, Bool.and_eq_true] at h
    rw [lossy, Utf8.encode_two (between_iff.mp htwo) (continues_iff.mp h.1)]
    exact congrArg (a :: b :: ·) (ih h.2)
  | case5 a ha htwo hthree b c rest ih =>
    rw [validUtf8, if_neg ha, if_neg htwo, if_pos hthree, Bool.and_eq_true, Bool.and_eq_true] at h
    obtain ⟨⟨hb, hc⟩, hrest⟩ := h
    rw [lossy, Utf8.encode_three (between_iff.mp hthree) (takes_three hb) (continues_iff.mp hc)]
    exact congrArg (a :: b :: c :: ·) (ih hrest)
  | case7 a ha htwo hthree hfour b c d rest ih =>
    rw [validUtf8, if_neg ha, if_neg htwo, if_neg hthree, if_pos hfour, Bool.and_eq_true,
      Bool.and_eq_true, Bool.and_eq_true] at h
    obtain ⟨⟨⟨hb, hc⟩, hd⟩, hrest⟩ := h
    rw [lossy, Utf8.encode_four (between_iff.mp hfour) (takes_four hb) (continues_iff.mp hc)
      (continues_iff.mp hd)]
    exact congrArg (a :: b :: c :: d :: ·) (ih hrest)
  | case4 a ha htwo =>
    unfold validUtf8 at h
    rw [if_neg ha, if_pos htwo] at h
    cases h
  | case6 a rest ha htwo hthree hshort =>
    unfold validUtf8 at h
    rw [if_neg ha, if_neg htwo, if_pos hthree] at h
    split at h
    · exact (hshort _ _ _ rfl).elim
    · cases h
  | case8 a rest ha htwo hthree hfour hshort =>
    unfold validUtf8 at h
    rw [if_neg ha, if_neg htwo, if_neg hthree, if_pos hfour] at h
    split at h
    · exact (hshort _ _ _ _ rfl).elim
    · cases h
  | case9 a rest ha htwo hthree hfour =>
    unfold validUtf8 at h
    rw [if_neg ha, if_neg htwo, if_neg hthree, if_neg hfour] at h
    cases h

/-- ASCII is UTF-8. -/
theorem valid_of_ascii (h : ∀ b ∈ bytes, b.toNat < 0x80) : validUtf8 bytes = true := by
  induction bytes with
  | nil => rfl
  | cons b rest ih =>
    have hb : b < 0x80 := UInt8.lt_iff_toNat_lt.mpr (h b List.mem_cons_self)
    unfold validUtf8
    rw [if_pos hb]
    exact ih fun c hc => h c (List.mem_cons_of_mem _ hc)

/-- What is behind an ASCII byte is UTF-8 if all is. -/
theorem valid_cut {b : UInt8} (hb : b.toNat < 0x80) (h : validUtf8 (pre ++ b :: post) = true) :
    validUtf8 post = true := by
  have hnone : ∀ {q : Utf8.Begun}, q.Wide → q.Takes b → False := fun hq htakes =>
    hq.not_takes hb htakes
  induction pre using validUtf8.induct with
  | case1 =>
    rw [List.nil_append] at h
    unfold validUtf8 at h
    rwa [if_pos (UInt8.lt_iff_toNat_lt.mpr hb)] at h
  | case2 a rest ha ih =>
    rw [List.cons_append] at h
    unfold validUtf8 at h
    rw [if_pos ha] at h
    exact ih h
  | case3 a ha htwo c rest ih =>
    rw [List.cons_append, List.cons_append] at h
    unfold validUtf8 at h
    rw [if_neg ha, if_pos htwo, Bool.and_eq_true] at h
    exact ih h.2
  | case4 a ha htwo =>
    rw [List.singleton_append] at h
    unfold validUtf8 at h
    rw [if_neg ha, if_pos htwo, Bool.and_eq_true] at h
    exact h.2
  | case5 a ha htwo hthree c d rest ih =>
    rw [List.cons_append, List.cons_append, List.cons_append] at h
    unfold validUtf8 at h
    rw [if_neg ha, if_neg htwo, if_pos hthree, Bool.and_eq_true] at h
    exact ih h.2
  | case6 a rest ha htwo hthree hshort =>
    rw [List.cons_append] at h
    unfold validUtf8 at h
    rw [if_neg ha, if_neg htwo, if_pos hthree] at h
    rcases rest with - | ⟨c, - | ⟨d, rest⟩⟩
    · cases post with
      | nil => cases h
      | cons d post =>
        -- the ASCII byte would be the second of three
        dsimp only [List.nil_append] at h
        rw [Bool.and_eq_true, Bool.and_eq_true] at h
        exact (hnone (Utf8.three_wide (between_iff.mp hthree)) (takes_three h.1.1)).elim
    · dsimp only [List.singleton_append] at h
      rw [Bool.and_eq_true] at h
      exact h.2
    · exact (hshort c d rest rfl).elim
  | case7 a ha htwo hthree hfour c d e rest ih =>
    rw [List.cons_append, List.cons_append, List.cons_append, List.cons_append] at h
    unfold validUtf8 at h
    rw [if_neg ha, if_neg htwo, if_neg hthree, if_pos hfour, Bool.and_eq_true] at h
    exact ih h.2
  | case8 a rest ha htwo hthree hfour hshort =>
    rw [List.cons_append] at h
    unfold validUtf8 at h
    rw [if_neg ha, if_neg htwo, if_neg hthree, if_pos hfour] at h
    rcases rest with - | ⟨c, - | ⟨d, - | ⟨e, rest⟩⟩⟩
    · rcases post with - | ⟨d, - | ⟨e, post⟩⟩
      · cases h
      · cases h
      · dsimp only [List.nil_append] at h
        rw [Bool.and_eq_true, Bool.and_eq_true, Bool.and_eq_true] at h
        exact (hnone (Utf8.four_wide (between_iff.mp hfour)) (takes_four h.1.1.1)).elim
    · cases post with
      | nil => cases h
      | cons d post =>
        dsimp only [List.singleton_append] at h
        rw [Bool.and_eq_true, Bool.and_eq_true, Bool.and_eq_true] at h
        have hle := (continues_iff.mp h.1.1.2).1
        omega
    · dsimp only [List.cons_append, List.nil_append] at h
      rw [Bool.and_eq_true] at h
      exact h.2
    · exact (hshort c d e rest rfl).elim
  | case9 a rest ha htwo hthree hfour =>
    rw [List.cons_append] at h
    unfold validUtf8 at h
    rw [if_neg ha, if_neg htwo, if_neg hthree, if_neg hfour] at h
    cases h

/-- The value of a line that is UTF-8 is UTF-8. -/
theorem valid_rawField {line : List UInt8} (h : validUtf8 line = true) :
    validUtf8 (rawField line).2 = true := by
  rcases colon_cases line with hnone | ⟨pre, post, hpre, rfl⟩
  · rw [rawField, splitOnce_none hnone]
    rfl
  · have hpost : validUtf8 post = true := valid_cut (by decide) h
    rw [rawField, splitOnce_colon hpre]
    show validUtf8 (stripSpace post) = true
    unfold stripSpace
    split
    · exact @valid_cut [] _ 32 (by decide) hpost
    · exact hpost

end Standard

end TokioCronet.Sse
