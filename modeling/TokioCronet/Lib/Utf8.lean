import Mathlib.Algebra.Group.Nat.Defs
import Mathlib.Data.List.Basic

/-!
# Decoding UTF-8

Bytes are decoded one after another. A byte that cannot go on with the sequence
before it ends that sequence with a replacement character and is read again as a
first byte. So an ASCII byte is itself wherever it stands, and a stream can be cut
at ASCII bytes and decoded part by part.

Encoding takes a decoded stream back to its bytes as long as it was well formed.
-/

namespace Utf8

/-- U+FFFD, what bytes that are not well formed are decoded to. -/
def replacement : Char := Char.ofNat 0xFFFD

/-- The character of a code point; the ranges of the bytes leave no other value. -/
def scalar (value : ℕ) : Char := if value.isValidChar then Char.ofNat value else replacement

/-- A sequence that has begun: its bits so far, how many bytes are missing, and the
range of the next one. -/
structure Begun where
  value : ℕ
  missing : ℕ
  lower : ℕ
  upper : ℕ

/-- A sequence of two bytes, by its first byte. -/
def Begun.two (n : ℕ) : Begun := ⟨n - 0xC0, 1, 0x80, 0xBF⟩

/-- Of three bytes: no overlong form, no surrogate. -/
def Begun.three (n : ℕ) : Begun :=
  ⟨n - 0xE0, 2, if n = 0xE0 then 0xA0 else 0x80, if n = 0xED then 0x9F else 0xBF⟩

/-- Of four bytes: no overlong form, nothing above U+10FFFF. -/
def Begun.four (n : ℕ) : Begun :=
  ⟨n - 0xF0, 3, if n = 0xF0 then 0x90 else 0x80, if n = 0xF4 then 0x8F else 0xBF⟩

/-- A byte that goes on with the sequence. -/
def Begun.Takes (p : Begun) (byte : UInt8) : Prop := p.lower ≤ byte.toNat ∧ byte.toNat ≤ p.upper

instance (p : Begun) (byte : UInt8) : Decidable (p.Takes byte) :=
  inferInstanceAs (Decidable (_ ∧ _))

/-- The sequence with one more byte. -/
def Begun.more (p : Begun) (byte : UInt8) : Begun :=
  ⟨p.value * 64 + (byte.toNat - 0x80), p.missing - 1, 0x80, 0xBF⟩

/-- A byte that no sequence waits for. -/
def first (byte : UInt8) : List Char × Option Begun :=
  let n := byte.toNat
  if n ≤ 0x7F then ([Char.ofNat n], none)
  else if 0xC2 ≤ n ∧ n ≤ 0xDF then ([], some (.two n))
  else if 0xE0 ≤ n ∧ n ≤ 0xEF then ([], some (.three n))
  else if 0xF0 ≤ n ∧ n ≤ 0xF4 then ([], some (.four n))
  else ([replacement], none)

/-- One more byte, behind a sequence that may have begun. -/
def step : Option Begun → UInt8 → List Char × Option Begun
  | none, byte => first byte
  | some p, byte =>
    if p.Takes byte then
      if p.missing = 1 then ([scalar (p.more byte).value], none) else ([], some (p.more byte))
    else (replacement :: (first byte).1, (first byte).2)

/-- What is decoded of a sequence that nothing goes on with. -/
def flush : Option Begun → List Char
  | none => []
  | some _ => [replacement]

/-- The bytes behind a sequence that may have begun. -/
def run (p : Option Begun) : List UInt8 → List Char
  | [] => flush p
  | byte :: bytes => (step p byte).1 ++ run (step p byte).2 bytes

/-- The text of some bytes. -/
def decode (bytes : List UInt8) : List Char := run none bytes

/-- The bytes of a text. -/
def encode (text : List Char) : List UInt8 := text.flatMap String.utf8EncodeChar

variable {p : Option Begun} {a b c d : UInt8} {bytes rest : List UInt8} {x : Char}

/-! ## ASCII -/

/-- The sequence stands for no ASCII character. -/
def Begun.Wide (p : Begun) : Prop :=
  1 ≤ p.missing ∧ 0x80 ≤ p.lower ∧ 0x80 ≤ (p.value * 64 + (p.lower - 0x80)) * 64 ^ (p.missing - 1)

/-- If a sequence has begun, it goes on. -/
def Wide (p : Option Begun) : Prop := ∀ q ∈ p, q.Wide

theorem wide_none : Wide none := fun _ hq => nomatch hq

theorem wide_some {q : Begun} : Wide (some q) ↔ q.Wide := by
  simp only [Wide, Option.mem_def, Option.some.injEq, forall_eq']

/-- A sequence that wants one byte more gets a character that is not ASCII. -/
theorem Begun.Wide.value {q : Begun} (h : q.Wide) (htakes : q.Takes b) (hmissing : q.missing = 1) :
    0x80 ≤ (q.more b).value := by
  obtain ⟨-, -, hvalue⟩ := h
  rw [hmissing, Nat.sub_self, Nat.pow_zero, Nat.mul_one] at hvalue
  have hlower : q.lower ≤ b.toNat := htakes.1
  show 0x80 ≤ q.value * 64 + (b.toNat - 0x80)
  omega

theorem Begun.Wide.more {q : Begun} (h : q.Wide) (htakes : q.Takes b) (hmissing : q.missing ≠ 1) :
    (q.more b).Wide := by
  obtain ⟨hpos, -, hvalue⟩ := h
  obtain ⟨m, hm⟩ : ∃ m, q.missing = m + 2 := ⟨q.missing - 2, by omega⟩
  have hlower : q.lower ≤ b.toNat := htakes.1
  refine ⟨?_, Nat.le_refl _, Nat.le_trans hvalue ?_⟩
  · show 1 ≤ q.missing - 1
    omega
  · show (q.value * 64 + (q.lower - 0x80)) * 64 ^ (q.missing - 1) ≤
      ((q.value * 64 + (b.toNat - 0x80)) * 64 + (0x80 - 0x80)) * 64 ^ (q.missing - 1 - 1)
    rw [hm, show m + 2 - 1 = m + 1 from rfl, show m + 1 - 1 = m from rfl, Nat.pow_succ,
      Nat.mul_comm (64 ^ m) 64, ← Nat.mul_assoc]
    exact Nat.mul_le_mul_right _ (by omega)

/-- An ASCII byte goes on with no sequence. -/
theorem Begun.Wide.not_takes {q : Begun} (h : q.Wide) (hb : b.toNat < 0x80) : ¬ q.Takes b := by
  rintro ⟨hle, -⟩
  have hlower := h.2.1
  omega

theorem replacement_wide : 0x80 ≤ replacement.toNat := by decide

theorem char_toNat {value : ℕ} (h : value.isValidChar) : (Char.ofNat value).toNat = value := by
  rw [Char.ofNat, dif_pos h]
  rfl

theorem scalar_wide {value : ℕ} (h : 0x80 ≤ value) : 0x80 ≤ (scalar value).toNat := by
  unfold scalar
  split
  · rename_i hvalid
    rwa [char_toNat hvalid]
  · exact replacement_wide

theorem first_ascii (h : b.toNat < 0x80) : first b = ([Char.ofNat b.toNat], none) := by
  rw [first, if_pos (by omega)]

theorem two_wide {n : ℕ} (h : 0xC2 ≤ n ∧ n ≤ 0xDF) : (Begun.two n).Wide := by
  refine ⟨Nat.le_refl 1, Nat.le_refl 0x80, ?_⟩
  show 0x80 ≤ ((n - 0xC0) * 64 + (0x80 - 0x80)) * 64 ^ (1 - 1)
  omega

theorem three_wide {n : ℕ} (h : 0xE0 ≤ n ∧ n ≤ 0xEF) : (Begun.three n).Wide := by
  have hlower : 0x80 ≤ (if n = 0xE0 then 0xA0 else 0x80) := by split_ifs <;> omega
  refine ⟨Nat.le_succ 1, hlower, ?_⟩
  show 0x80 ≤ ((n - 0xE0) * 64 + ((if n = 0xE0 then 0xA0 else 0x80) - 0x80)) * 64 ^ (2 - 1)
  split_ifs <;> omega

theorem four_wide {n : ℕ} (h : 0xF0 ≤ n ∧ n ≤ 0xF4) : (Begun.four n).Wide := by
  have hlower : 0x80 ≤ (if n = 0xF0 then 0x90 else 0x80) := by split_ifs <;> omega
  refine ⟨Nat.le_add_left 1 2, hlower, ?_⟩
  show 0x80 ≤ ((n - 0xF0) * 64 + ((if n = 0xF0 then 0x90 else 0x80) - 0x80)) * 64 ^ (3 - 1)
  split_ifs <;> omega

/-- **What a first byte does.** It is a character, begins a sequence, or is replaced. -/
theorem first_cases (b : UInt8) :
    b.toNat < 0x80 ∧ first b = ([Char.ofNat b.toNat], none) ∨
    0x80 ≤ b.toNat ∧ (∃ q, first b = ([], some q) ∧ Wide (some q)) ∨
    0x80 ≤ b.toNat ∧ first b = ([replacement], none) := by
  by_cases hascii : b.toNat < 0x80
  · exact .inl ⟨hascii, first_ascii hascii⟩
  refine .inr ?_
  have hwide : 0x80 ≤ b.toNat := Nat.le_of_not_lt hascii
  unfold first
  dsimp only
  rw [if_neg (by omega)]
  by_cases htwo : 0xC2 ≤ b.toNat ∧ b.toNat ≤ 0xDF
  · exact .inl ⟨hwide, .two b.toNat, if_pos htwo, wide_some.mpr (two_wide htwo)⟩
  rw [if_neg htwo]
  by_cases hthree : 0xE0 ≤ b.toNat ∧ b.toNat ≤ 0xEF
  · exact .inl ⟨hwide, .three b.toNat, if_pos hthree, wide_some.mpr (three_wide hthree)⟩
  rw [if_neg hthree]
  by_cases hfour : 0xF0 ≤ b.toNat ∧ b.toNat ≤ 0xF4
  · exact .inl ⟨hwide, .four b.toNat, if_pos hfour, wide_some.mpr (four_wide hfour)⟩
  rw [if_neg hfour]
  exact .inr ⟨hwide, rfl⟩

theorem first_wide (b : UInt8) : Wide (first b).2 := by
  rcases first_cases b with ⟨-, h⟩ | ⟨-, q, h, hwide⟩ | ⟨-, h⟩
  · rw [h]
    exact wide_none
  · rw [h]
    exact hwide
  · rw [h]
    exact wide_none

/-- Only an ASCII byte is decoded to an ASCII character, and to itself. -/
theorem first_mem (h : x ∈ (first b).1) (hx : x.toNat < 0x80) : b.toNat = x.toNat := by
  rcases first_cases b with ⟨hb, hfirst⟩ | ⟨-, q, hfirst, -⟩ | ⟨-, hfirst⟩
  · rw [hfirst, List.mem_singleton] at h
    rw [h, char_toNat (.inl (by omega))]
  · rw [hfirst] at h
    cases h
  · rw [hfirst, List.mem_singleton] at h
    have hwide := replacement_wide
    rw [← h] at hwide
    omega

theorem step_wide (hp : Wide p) (b : UInt8) : Wide (step p b).2 := by
  cases p with
  | none => exact first_wide b
  | some q =>
    rw [step]
    split_ifs with htakes hmissing
    · exact wide_none
    · exact wide_some.mpr ((wide_some.mp hp).more htakes hmissing)
    · exact first_wide b

theorem step_mem (hp : Wide p) (h : x ∈ (step p b).1) (hx : x.toNat < 0x80) :
    b.toNat = x.toNat := by
  cases p with
  | none => exact first_mem h hx
  | some q =>
    rw [step] at h
    split_ifs at h with htakes hmissing
    · have hwide := scalar_wide ((wide_some.mp hp).value htakes hmissing)
      rw [← List.mem_singleton.mp h] at hwide
      omega
    · cases h
    · rcases List.mem_cons.mp h with h | h
      · have hwide := replacement_wide
        rw [← h] at hwide
        omega
      · exact first_mem h hx

theorem step_ascii (hp : Wide p) (h : b.toNat < 0x80) :
    step p b = (flush p ++ [Char.ofNat b.toNat], none) := by
  cases p with
  | none => exact first_ascii h
  | some q =>
    rw [step, if_neg ((wide_some.mp hp).not_takes h), first_ascii h]
    rfl

/-- An ASCII byte is itself, and what is before it is decoded alone. -/
theorem run_ascii (hb : b.toNat < 0x80) (rest : List UInt8) (bytes : List UInt8) :
    ∀ {p : Option Begun}, Wide p →
      run p (bytes ++ b :: rest) = run p bytes ++ Char.ofNat b.toNat :: decode rest := by
  induction bytes with
  | nil =>
    intro p hp
    rw [List.nil_append, run, run, step_ascii hp hb, List.append_assoc]
    rfl
  | cons byte bytes ih =>
    intro p hp
    rw [List.cons_append, run, run, ih (step_wide hp byte), List.append_assoc]

/-- **A stream can be cut at an ASCII byte.** -/
theorem decode_ascii (bytes : List UInt8) (hb : b.toNat < 0x80) (rest : List UInt8) :
    decode (bytes ++ b :: rest) = decode bytes ++ Char.ofNat b.toNat :: decode rest :=
  run_ascii hb rest bytes wide_none

theorem decode_cons_ascii (hb : b.toNat < 0x80) (rest : List UInt8) :
    decode (b :: rest) = Char.ofNat b.toNat :: decode rest := decode_ascii [] hb rest

theorem run_mem (hx : x.toNat < 0x80) (bytes : List UInt8) : ∀ {p : Option Begun}, Wide p →
    x ∈ run p bytes → ∃ b ∈ bytes, b.toNat = x.toNat := by
  induction bytes with
  | nil =>
    intro p _ h
    cases p with
    | none => cases h
    | some q =>
      have hwide := replacement_wide
      rw [← List.mem_singleton.mp h] at hwide
      omega
  | cons byte bytes ih =>
    intro p hp h
    rw [run] at h
    rcases List.mem_append.mp h with h | h
    · exact ⟨byte, List.mem_cons_self, step_mem hp h hx⟩
    · obtain ⟨b, hb, heq⟩ := ih (step_wide hp byte) h
      exact ⟨b, List.mem_cons_of_mem _ hb, heq⟩

/-- An ASCII character comes from its byte. -/
theorem decode_mem (h : x ∈ decode bytes) (hx : x.toNat < 0x80) :
    ∃ b ∈ bytes, b.toNat = x.toNat := run_mem hx bytes wide_none h

/-- What a sequence that has begun is decoded to is not ASCII. -/
theorem run_begun (bytes : List UInt8) : ∀ {q : Begun}, Wide (some q) →
    ∃ x text, run (some q) bytes = x :: text ∧ 0x80 ≤ x.toNat := by
  induction bytes with
  | nil =>
    intro q _
    exact ⟨replacement, [], rfl, replacement_wide⟩
  | cons byte bytes ih =>
    intro q hq
    rw [run, step]
    split_ifs with htakes hmissing
    · exact ⟨_, _, rfl, scalar_wide ((wide_some.mp hq).value htakes hmissing)⟩
    · exact ih (wide_some.mpr ((wide_some.mp hq).more htakes hmissing))
    · exact ⟨_, _, rfl, replacement_wide⟩

theorem decode_cons_wide (hb : 0x80 ≤ b.toNat) (rest : List UInt8) :
    ∃ x text, decode (b :: rest) = x :: text ∧ 0x80 ≤ x.toNat := by
  show ∃ x text, (first b).1 ++ run (first b).2 rest = x :: text ∧ 0x80 ≤ x.toNat
  rcases first_cases b with ⟨hascii, -⟩ | ⟨-, q, hfirst, hwide⟩ | ⟨-, hfirst⟩
  · omega
  · rw [hfirst]
    exact run_begun rest hwide
  · rw [hfirst]
    exact ⟨_, _, rfl, replacement_wide⟩

/-- Bytes that are decoded to ASCII are ASCII. -/
theorem ascii_of_decode : (∀ x ∈ decode bytes, x.toNat < 0x80) → ∀ b ∈ bytes, b.toNat < 0x80 := by
  induction bytes with
  | nil => intro _ b hb; cases hb
  | cons byte rest ih =>
    intro h b hb
    by_cases hbyte : byte.toNat < 0x80
    · rw [decode_cons_ascii hbyte] at h
      rcases List.mem_cons.mp hb with rfl | hb
      · exact hbyte
      · exact ih (fun x hx => h x (List.mem_cons_of_mem _ hx)) b hb
    · obtain ⟨x, text, hdecode, hwide⟩ := decode_cons_wide (Nat.le_of_not_lt hbyte) rest
      have hx := h x (by rw [hdecode]; exact List.mem_cons_self)
      omega

/-- Nothing but the empty stream is decoded to nothing. -/
theorem decode_eq_nil : decode bytes = [] ↔ bytes = [] := by
  constructor
  · intro h
    cases bytes with
    | nil => rfl
    | cons byte rest =>
      by_cases hbyte : byte.toNat < 0x80
      · rw [decode_cons_ascii hbyte] at h
        cases h
      · obtain ⟨x, text, hdecode, -⟩ := decode_cons_wide (Nat.le_of_not_lt hbyte) rest
        rw [hdecode] at h
        cases h
  · rintro rfl
    rfl

/-! ## Encoding -/

theorem encode_cons (x : Char) (text : List Char) :
    encode (x :: text) = String.utf8EncodeChar x ++ encode text := List.flatMap_cons

theorem encode_append (text text' : List Char) :
    encode (text ++ text') = encode text ++ encode text' := List.flatMap_append

theorem encodeChar_ascii (hx : x.toNat < 0x80) :
    String.utf8EncodeChar x = [UInt8.ofNat x.toNat] := by
  have hle : x.val.toNat ≤ 0x7F := Nat.le_of_lt_succ hx
  rw [String.utf8EncodeChar]
  exact if_pos hle

/-- A character that is not ASCII is encoded without ASCII bytes. -/
theorem encodeChar_wide (hx : 0x80 ≤ x.toNat) :
    ∀ b ∈ String.utf8EncodeChar x, 0x80 ≤ b.toNat := by
  have hgt : ¬ x.val.toNat ≤ 0x7F := Nat.not_le_of_lt hx
  intro b hb
  rw [String.utf8EncodeChar, if_neg hgt] at hb
  split_ifs at hb <;> simp only [List.mem_cons, List.not_mem_nil, or_false] at hb
  · rcases hb with rfl | rfl <;> rw [UInt8.toNat_ofNat'] <;> omega
  · rcases hb with rfl | rfl | rfl <;> rw [UInt8.toNat_ofNat'] <;> omega
  · rcases hb with rfl | rfl | rfl | rfl <;> rw [UInt8.toNat_ofNat'] <;> omega

/-- An ASCII byte comes from its character. -/
theorem encode_mem {text : List Char} (h : b ∈ encode text) (hb : b.toNat < 0x80) :
    ∃ x ∈ text, x.toNat = b.toNat := by
  obtain ⟨x, hx, hbyte⟩ := List.mem_flatMap.mp h
  refine ⟨x, hx, ?_⟩
  by_cases hascii : x.toNat < 0x80
  · rw [encodeChar_ascii hascii, List.mem_singleton] at hbyte
    rw [hbyte, UInt8.toNat_ofNat', Nat.mod_eq_of_lt (by omega)]
  · have hwide := encodeChar_wide (Nat.le_of_not_lt hascii) b hbyte
    omega

/-! ## Well-formed sequences -/

theorem byte_eq {n : ℕ} (h : n = b.toNat) : UInt8.ofNat n = b := by
  rw [h, UInt8.ofNat_toNat]

theorem scalar_toNat {value : ℕ} (h : value.isValidChar) : (scalar value).toNat = value := by
  rw [scalar, if_pos h, char_toNat h]

theorem encode_ascii (hb : b.toNat < 0x80) (rest : List UInt8) :
    encode (decode (b :: rest)) = b :: encode (decode rest) := by
  have hx : (Char.ofNat b.toNat).toNat = b.toNat := char_toNat (.inl (by omega))
  rw [decode_cons_ascii hb, encode_cons, encodeChar_ascii (by omega), hx, byte_eq rfl]
  rfl

theorem step_more {q : Begun} (h : q.Takes b) (hmissing : q.missing ≠ 1) :
    step (some q) b = ([], some (q.more b)) := by
  rw [step, if_pos h, if_neg hmissing]

theorem step_last {q : Begun} (h : q.Takes b) (hmissing : q.missing = 1) :
    step (some q) b = ([scalar (q.more b).value], none) := by
  rw [step, if_pos h, if_pos hmissing]

theorem encode_decode_ascii (h : ∀ b ∈ bytes, b.toNat < 0x80) : encode (decode bytes) = bytes := by
  induction bytes with
  | nil => rfl
  | cons b rest ih =>
    rw [encode_ascii (h b List.mem_cons_self), ih fun c hc => h c (List.mem_cons_of_mem _ hc)]

theorem decode_encode_ascii {text : List Char} (h : ∀ x ∈ text, x.toNat < 0x80) :
    decode (encode text) = text := by
  induction text with
  | nil => rfl
  | cons x text ih =>
    have hx := h x List.mem_cons_self
    have hbyte : (UInt8.ofNat x.toNat).toNat = x.toNat := by
      rw [UInt8.toNat_ofNat', Nat.mod_eq_of_lt (by omega)]
    rw [encode_cons, encodeChar_ascii hx, List.singleton_append, decode_cons_ascii (by omega),
      hbyte, Char.ofNat_toNat, ih fun y hy => h y (List.mem_cons_of_mem _ hy)]

/-- ASCII text is decoded from its own bytes alone. -/
theorem decode_eq_ascii {text : List Char} (h : ∀ x ∈ text, x.toNat < 0x80) :
    decode bytes = text ↔ bytes = encode text := by
  constructor
  · rintro rfl
    rw [encode_decode_ascii (ascii_of_decode h)]
  · rintro rfl
    exact decode_encode_ascii h

theorem encode_eq_nil {text : List Char} : encode text = [] ↔ text = [] := by
  constructor
  · intro h
    cases text with
    | nil => rfl
    | cons x text =>
      rw [encode_cons, List.append_eq_nil_iff] at h
      exact absurd h.1 String.utf8EncodeChar_ne_nil
  · rintro rfl
    rfl

/-- A sequence of two bytes is encoded as it was. -/
theorem encode_two (ha : 0xC2 ≤ a.toNat ∧ a.toNat ≤ 0xDF) (hb : (Begun.two a.toNat).Takes b)
    (rest : List UInt8) : encode (decode (a :: b :: rest)) = a :: b :: encode (decode rest) := by
  have hdecode : decode (a :: b :: rest) =
      scalar ((Begun.two a.toNat).more b).value :: decode rest := by
    rw [decode, run, run, step, first, if_neg (by omega), if_pos ha, step_last hb rfl]
    rfl
  obtain ⟨value, hval⟩ : ∃ value, value = (a.toNat - 0xC0) * 64 + (b.toNat - 0x80) := ⟨_, rfl⟩
  have hrange : 0x80 ≤ b.toNat ∧ b.toNat ≤ 0xBF := hb
  have hvalue : (scalar value).val.toNat = value := scalar_toNat (.inl (by omega))
  rw [hdecode, encode_cons, String.utf8EncodeChar,
    show ((Begun.two a.toNat).more b).value = value from hval.symm, hvalue, if_neg (by omega),
    if_pos (by omega), byte_eq (b := a) (by omega), byte_eq (b := b) (by omega)]
  rfl

/-- Of three bytes. -/
theorem encode_three (ha : 0xE0 ≤ a.toNat ∧ a.toNat ≤ 0xEF) (hb : (Begun.three a.toNat).Takes b)
    (hc : 0x80 ≤ c.toNat ∧ c.toNat ≤ 0xBF) (rest : List UInt8) :
    encode (decode (a :: b :: c :: rest)) = a :: b :: c :: encode (decode rest) := by
  have hdecode : decode (a :: b :: c :: rest) =
      scalar (((Begun.three a.toNat).more b).more c).value :: decode rest := by
    rw [decode, run, run, run, step, first, if_neg (by omega), if_neg (by omega), if_pos ha,
      step_more hb (Nat.succ_ne_self 1), step_last (q := (Begun.three a.toNat).more b) hc rfl]
    rfl
  obtain ⟨value, hval⟩ : ∃ value,
      value = ((a.toNat - 0xE0) * 64 + (b.toNat - 0x80)) * 64 + (c.toNat - 0x80) := ⟨_, rfl⟩
  have hrange : 0x80 ≤ b.toNat ∧ b.toNat ≤ 0xBF ∧ (a.toNat = 0xE0 → 0xA0 ≤ b.toNat) ∧
      (a.toNat = 0xED → b.toNat ≤ 0x9F) := by
    have hin : (if a.toNat = 0xE0 then 0xA0 else 0x80) ≤ b.toNat ∧
        b.toNat ≤ if a.toNat = 0xED then 0x9F else 0xBF := hb
    split_ifs at hin <;> omega
  have hvalue : (scalar value).val.toNat = value :=
    scalar_toNat (by unfold Nat.isValidChar; omega)
  rw [hdecode, encode_cons, String.utf8EncodeChar,
    show (((Begun.three a.toNat).more b).more c).value = value from hval.symm, hvalue,
    if_neg (by omega), if_neg (by omega), if_pos (by omega), byte_eq (b := a) (by omega),
    byte_eq (b := b) (by omega), byte_eq (b := c) (by omega)]
  rfl

/-- Of four bytes. -/
theorem encode_four (ha : 0xF0 ≤ a.toNat ∧ a.toNat ≤ 0xF4) (hb : (Begun.four a.toNat).Takes b)
    (hc : 0x80 ≤ c.toNat ∧ c.toNat ≤ 0xBF) (hd : 0x80 ≤ d.toNat ∧ d.toNat ≤ 0xBF)
    (rest : List UInt8) :
    encode (decode (a :: b :: c :: d :: rest)) = a :: b :: c :: d :: encode (decode rest) := by
  have hdecode : decode (a :: b :: c :: d :: rest) =
      scalar ((((Begun.four a.toNat).more b).more c).more d).value :: decode rest := by
    rw [decode, run, run, run, run, step, first, if_neg (by omega), if_neg (by omega),
      if_neg (by omega), if_pos ha, step_more hb (show 3 ≠ 1 by decide),
      step_more (q := (Begun.four a.toNat).more b) hc (Nat.succ_ne_self 1),
      step_last (q := ((Begun.four a.toNat).more b).more c) hd rfl]
    rfl
  obtain ⟨value, hval⟩ : ∃ value, value = (((a.toNat - 0xF0) * 64 + (b.toNat - 0x80)) * 64 +
      (c.toNat - 0x80)) * 64 + (d.toNat - 0x80) := ⟨_, rfl⟩
  have hrange : 0x80 ≤ b.toNat ∧ b.toNat ≤ 0xBF ∧ (a.toNat = 0xF0 → 0x90 ≤ b.toNat) ∧
      (a.toNat = 0xF4 → b.toNat ≤ 0x8F) := by
    have hin : (if a.toNat = 0xF0 then 0x90 else 0x80) ≤ b.toNat ∧
        b.toNat ≤ if a.toNat = 0xF4 then 0x8F else 0xBF := hb
    split_ifs at hin <;> omega
  have hvalue : (scalar value).val.toNat = value :=
    scalar_toNat (by unfold Nat.isValidChar; omega)
  rw [hdecode, encode_cons, String.utf8EncodeChar,
    show ((((Begun.four a.toNat).more b).more c).more d).value = value from hval.symm, hvalue,
    if_neg (by omega), if_neg (by omega), if_neg (by omega), byte_eq (b := a) (by omega),
    byte_eq (b := b) (by omega), byte_eq (b := c) (by omega), byte_eq (b := d) (by omega)]
  rfl

end Utf8
