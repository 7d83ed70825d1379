import Mathlib.Data.List.TakeDrop
import TokioCronet.Lib.Lines
import TokioCronet.Lib.Scan

/-!
# Strings and buffers of C

Reading a stream line by line into a buffer, cutting a string into words, reading a number,
and keeping strings behind each other in one array. A character is a byte; the arrays have
their size, and a write that leaves one has no result.
-/

namespace CString

/-- Characters of a string. -/
abbrev Text := List Char

/-! ## Arrays -/

variable {α : Type*}

/-- An assignment to an element. -/
def store (xs : List α) (i : ℕ) (x : α) : Option (List α) :=
  if i < xs.length then some (xs.set i x) else none

/-- `memcpy` into an array -/
def copy (xs : List α) (i : ℕ) (ys : List α) : Option (List α) :=
  if i + ys.length ≤ xs.length then some (xs.take i ++ ys ++ xs.drop (i + ys.length)) else none

/-! ## Reading lines -/

/-- At most `n` characters, and none behind a newline. -/
def takeLine : ℕ → Text → Text × Text
  | 0, t => ([], t)
  | _ + 1, [] => ([], [])
  | n + 1, c :: t =>
    if c = '\n' then ([c], t) else (c :: (takeLine n t).1, (takeLine n t).2)

theorem takeLine_splits (n : ℕ) (t : Text) : (takeLine n t).1 ++ (takeLine n t).2 = t := by
  induction n generalizing t with
  | zero => rfl
  | succ n ih =>
    cases t with
    | nil => rfl
    | cons c t =>
      rw [takeLine]
      split_ifs
      · rfl
      · exact congrArg (c :: ·) (ih t)

theorem takeLine_ne_nil {n : ℕ} {t : Text} (h : t ≠ []) : (takeLine (n + 1) t).1 ≠ [] := by
  cases t with
  | nil => exact absurd rfl h
  | cons c t =>
    rw [takeLine]
    split_ifs
    · exact List.cons_ne_nil _ _
    · exact List.cons_ne_nil _ _

/-- What stands behind a line is not looked at. -/
theorem takeLine_append {n : ℕ} {s : Text} (t : Text) (h : '\n' ∈ s) :
    takeLine n (s ++ t) = ((takeLine n s).1, (takeLine n s).2 ++ t) := by
  induction n generalizing s with
  | zero => rfl
  | succ n ih =>
    cases s with
    | nil => cases h
    | cons c s =>
      rw [List.cons_append, takeLine, takeLine]
      split_ifs with hc
      · rfl
      · have hs := (List.mem_cons.mp h).resolve_left (Ne.symm hc)
        rw [ih hs]

/-- A line that fits is taken whole. -/
theorem takeLine_fits {n : ℕ} {l : Text} (hline : '\n' ∉ l.dropLast) (hlen : l.length ≤ n) :
    takeLine n l = (l, []) := by
  induction n generalizing l with
  | zero => rw [List.eq_nil_of_length_eq_zero (Nat.le_zero.mp hlen)]; rfl
  | succ n ih =>
    cases l with
    | nil => rfl
    | cons c l =>
      rw [List.length_cons, Nat.succ_le_succ_iff] at hlen
      rw [takeLine]
      cases l with
      | nil =>
        have hnil : takeLine n [] = ([], []) := ih List.not_mem_nil (Nat.zero_le _)
        rw [hnil]
        split_ifs
        · rfl
        · rfl
      | cons d l =>
        rw [List.dropLast_cons_cons, List.mem_cons, not_or] at hline
        rw [if_neg (Ne.symm hline.1), ih hline.2 hlen]

/-- `fgets` with a buffer of `size` characters, of which the last is for the end of the
string. -/
def fgets (size : ℕ) (hsize : 2 ≤ size) : Scan.Cutter Char Text where
  cut t := if t = [] then none else some (takeLine (size - 1) t)
  splits := by
    intro t l rest h
    split_ifs at h with ht
    obtain ⟨n, hn⟩ : ∃ n, size - 1 = n + 1 := ⟨size - 2, by omega⟩
    have hline := Option.some.inj h
    have hsplits := takeLine_splits (size - 1) t
    have hne := takeLine_ne_nil (n := n) ht
    rw [← hn, hline] at hne
    rw [hline] at hsplits
    exact ⟨l, hne, hsplits.symm⟩

section Pieces

variable {size : ℕ} {hsize : 2 ≤ size}

/-- What `fgets` returns one after another. -/
def pieces (size : ℕ) (hsize : 2 ≤ size) (t : Text) : List Text := ((fgets size hsize).scan t).1

theorem fgets_cut (t : Text) : (fgets size hsize).cut t =
    if t = [] then none else some (takeLine (size - 1) t) := rfl

theorem fgets_eq_none {t : Text} : (fgets size hsize).cut t = none ↔ t = [] := by
  constructor
  · intro h
    by_contra ht
    rw [fgets_cut, if_neg ht] at h
    cases h
  · rintro rfl
    rfl

theorem pieces_append {s t : Text} (h : s.getLast? = some '\n') :
    pieces size hsize (s ++ t) = pieces size hsize s ++ pieces size hsize t := by
  have hsteady : (fgets size hsize).Steady s t := by
    intro u l rest hu hcut
    have hne : u ≠ [] := fun hnil => by
      rw [fgets_eq_none.mpr hnil] at hcut
      cases hcut
    have hlast : u.getLast? = some '\n' := by
      obtain ⟨p, rfl⟩ := hu
      rwa [List.getLast?_append_of_ne_nil _ hne] at h
    have hmem : '\n' ∈ u := List.mem_of_getLast? hlast
    rw [fgets_cut, if_neg hne] at hcut
    rw [fgets_cut, if_neg (by simp [hne]), takeLine_append t hmem, Option.some.inj hcut]
  have hdone : ((fgets size hsize).scan s).2 = [] := fgets_eq_none.mp (Scan.cut_scan s)
  rw [pieces, Scan.scan_append hsteady, hdone]
  rfl

/-- **Reading goes line by line**: the pieces of a text are those of its lines. -/
theorem pieces_lines (t : Text) :
    pieces size hsize t = (Lines.splitInclusive t).flatMap (pieces size hsize) := by
  induction hlines : Lines.splitInclusive t generalizing t with
  | nil =>
    rw [Lines.splitInclusive_eq_nil.mp hlines]
    rfl
  | cons l ls ih =>
    obtain ⟨hrest, -, -, hlast⟩ := Lines.splitInclusive_cons hlines
    have ht : t = l ++ ls.flatten := by
      rw [← Lines.flatten_splitInclusive t, hlines, List.flatten_cons]
    rw [ht, List.flatMap_cons, ← ih _ hrest]
    by_cases hls : ls = []
    · subst hls
      rw [List.flatten_nil, List.append_nil]
      exact (List.append_nil _).symm
    · exact pieces_append (hlast hls)

theorem pieces_eq_nil {t : Text} (h : pieces size hsize t = []) : t = [] := by
  cases hcut : (fgets size hsize).cut t with
  | none => exact fgets_eq_none.mp hcut
  | some p =>
    rw [pieces, Scan.scan_of_some hcut] at h
    cases h

/-- A line that fits into the buffer is one piece. -/
theorem pieces_fits {l : Text} (hline : '\n' ∉ l.dropLast) (hne : l ≠ [])
    (hlen : l.length < size) : pieces size hsize l = [l] := by
  have hcut : (fgets size hsize).cut l = some (l, []) := by
    rw [fgets_cut, if_neg hne, takeLine_fits hline (by omega)]
  rw [pieces, Scan.scan_of_some hcut, Scan.scan_of_none (fgets_eq_none.mpr rfl)]

end Pieces

/-! ## Words and numbers -/

/-- The words between separators, of which `current` has begun. -/
def wordsFrom (separator : Char → Bool) : Text → Text → List Text
  | current, [] => if current = [] then [] else [current]
  | current, c :: t =>
    if separator c then
      if current = [] then wordsFrom separator [] t
      else current :: wordsFrom separator [] t
    else wordsFrom separator (current ++ [c]) t

/-- What `strtok_r` returns one after another. -/
def words (separator : Char → Bool) (t : Text) : List Text := wordsFrom separator [] t

theorem mem_wordsFrom {separator : Char → Bool} {current t w : Text} {c : Char}
    (hw : w ∈ wordsFrom separator current t) (hc : c ∈ w) : c ∈ current ∨ c ∈ t := by
  induction t generalizing current with
  | nil =>
    rw [wordsFrom] at hw
    split_ifs at hw
    · cases hw
    · exact .inl (List.mem_singleton.mp hw ▸ hc)
  | cons d t ih =>
    rw [wordsFrom] at hw
    have hrest : w ∈ wordsFrom separator [] t → c ∈ current ∨ c ∈ d :: t := fun h =>
      .inr (List.mem_cons_of_mem _ ((ih h).resolve_left List.not_mem_nil))
    split_ifs at hw
    · exact hrest hw
    · rcases List.mem_cons.mp hw with rfl | hw
      · exact .inl hc
      · exact hrest hw
    · rcases ih hw with h | h
      · rcases List.mem_append.mp h with h | h
        · exact .inl h
        · exact .inr (List.mem_singleton.mp h ▸ List.mem_cons_self)
      · exact .inr (List.mem_cons_of_mem _ h)

/-- Words consist of characters of the string. -/
theorem mem_words {separator : Char → Bool} {t w : Text} {c : Char} (hw : w ∈ words separator t)
    (hc : c ∈ w) : c ∈ t :=
  (mem_wordsFrom hw hc).resolve_left List.not_mem_nil

/-- `isspace` -/
def isSpace (c : Char) : Bool := c ∈ [' ', '\t', '\n', '\x0b', '\x0c', '\r']

/-- The number that a string of digits is. -/
def decimal (digits : Text) : ℕ := digits.foldl (fun n c => 10 * n + (c.toNat - 48)) 0

/-- `strtoul` in base ten, where `max` is the greatest `unsigned long`. -/
def strtoul (max : ℕ) (t : Text) : ℕ :=
  let t := t.dropWhile isSpace
  let digits := if t.head? ∈ [some '-', some '+'] then t.tail else t
  let value := decimal (digits.takeWhile Char.isDigit)
  if max < value then max
  else if t.head? = some '-' then (max + 1 - value) % (max + 1)
  else value

/-! ## Strings behind each other -/

/-- Strings with the zeros that end them. -/
def packed (names : List Text) : Text := names.flatMap (· ++ ['\x00'])

/-- Where each of them begins. -/
def offsets : ℕ → List Text → List ℕ
  | _, [] => []
  | i, name :: names => i :: offsets (i + (name.length + 1)) names

/-- The string that a pointer points to. -/
def stringAt (buffer : Text) (i : ℕ) : Text := (buffer.drop i).takeWhile (· ≠ '\x00')

theorem packed_cons (name : Text) (names : List Text) :
    packed (name :: names) = name ++ '\x00' :: packed names := by
  rw [packed, List.flatMap_cons, List.append_assoc]
  rfl

theorem packed_concat (names : List Text) (name : Text) :
    packed (names ++ [name]) = packed names ++ (name ++ ['\x00']) := by
  rw [packed, List.flatMap_append, packed]
  simp

theorem offsets_concat (i : ℕ) (names : List Text) (name : Text) :
    offsets i (names ++ [name]) = offsets i names ++ [i + (packed names).length] := by
  induction names generalizing i with
  | nil => rfl
  | cons first names ih =>
    rw [List.cons_append, offsets, ih, offsets, packed_cons]
    simp only [List.length_append, List.length_cons, List.cons_append]
    rw [Nat.add_assoc, Nat.add_assoc, Nat.add_comm 1]

theorem length_offsets (i : ℕ) (names : List Text) : (offsets i names).length = names.length := by
  induction names generalizing i with
  | nil => rfl
  | cons name names ih => rw [offsets, List.length_cons, List.length_cons, ih]

/-- **Packed strings are read back.** -/
theorem stringAt_packed {before rest : Text} {names : List Text}
    (h : ∀ name ∈ names, '\x00' ∉ name) :
    (offsets before.length names).map (stringAt (before ++ (packed names ++ rest))) = names := by
  induction names generalizing before with
  | nil => rfl
  | cons name names ih =>
    rw [List.forall_mem_cons] at h
    have hfirst : stringAt (before ++ (packed (name :: names) ++ rest)) before.length = name := by
      rw [stringAt, List.drop_left, packed_cons, List.append_assoc,
        List.takeWhile_append_of_pos (fun c hc => by simpa using ne_of_mem_of_not_mem hc h.1)]
      simp
    have hnext : before ++ (packed (name :: names) ++ rest) =
        (before ++ (name ++ ['\x00'])) ++ (packed names ++ rest) := by
      rw [packed_cons]
      simp
    have hlen : before.length + (name.length + 1) = (before ++ (name ++ ['\x00'])).length := by
      simp
    rw [offsets, List.map_cons, hfirst, hnext, hlen, ih h.2]

/-! ## The longest beginning that fits -/

/-- As many strings as there are places for, and as fit into a buffer. -/
def Fits (places size : ℕ) (names : List Text) : Prop :=
  names.length ≤ places ∧ (packed names).length ≤ size

/-- The longest beginning of a list of strings that fits into as many places and so many bytes. -/
def fitting : ℕ → ℕ → List Text → List Text
  | places + 1, size, name :: names =>
    if size < name.length + 1 then []
    else name :: fitting places (size - (name.length + 1)) names
  | _, _, _ => []

/-- **`fitting` is the longest beginning that fits.** -/
theorem fitting_longest (places size : ℕ) (names : List Text) :
    fitting places size names <+: names ∧ Fits places size (fitting places size names) ∧
      ∀ start, start <+: names → Fits places size start → start <+: fitting places size names := by
  induction names generalizing places size with
  | nil =>
    have hnil : fitting places size [] = [] := by cases places <;> rfl
    rw [hnil]
    exact ⟨List.prefix_rfl, ⟨Nat.zero_le _, Nat.zero_le _⟩, fun start h _ => h⟩
  | cons name names ih =>
    -- a beginning that is not empty begins with `name`
    have hcons : ∀ start : List Text, start <+: name :: names → start ≠ [] →
        ∃ more, start = name :: more ∧ more <+: names := by
      intro start hstart hne
      cases start with
      | nil => exact absurd rfl hne
      | cons first more =>
        obtain ⟨rfl, hmore⟩ := List.cons_prefix_cons.mp hstart
        exact ⟨more, rfl, hmore⟩
    cases places with
    | zero =>
      refine ⟨List.nil_prefix, ⟨Nat.zero_le _, Nat.zero_le _⟩, fun start _ hfits => ?_⟩
      rw [List.eq_nil_of_length_eq_zero (Nat.le_zero.mp hfits.1)]
      exact List.nil_prefix
    | succ places =>
      rw [fitting]
      split_ifs with hsize
      · refine ⟨List.nil_prefix, ⟨Nat.zero_le _, Nat.zero_le _⟩, fun start hstart hfits => ?_⟩
        by_cases hne : start = []
        · exact hne ▸ List.nil_prefix
        · obtain ⟨more, rfl, -⟩ := hcons start hstart hne
          have hlen := hfits.2
          rw [packed_cons, List.length_append, List.length_cons] at hlen
          omega
      · obtain ⟨hbegins, hfit, hlongest⟩ := ih places (size - (name.length + 1))
        refine ⟨List.cons_prefix_cons.mpr ⟨rfl, hbegins⟩, ⟨Nat.succ_le_succ hfit.1, ?_⟩, ?_⟩
        · have hlen := hfit.2
          rw [packed_cons, List.length_append, List.length_cons]
          omega
        · intro start hstart hfits
          by_cases hne : start = []
          · exact hne ▸ List.nil_prefix
          · obtain ⟨more, rfl, hmore⟩ := hcons start hstart hne
            have hlen := hfits.2
            rw [packed_cons, List.length_append, List.length_cons] at hlen
            exact List.cons_prefix_cons.mpr
              ⟨rfl, hlongest more hmore ⟨Nat.le_of_succ_le_succ hfits.1, by omega⟩⟩

end CString
