import TokioCronet.Lib.Offsets

/-!
# Lines of a text

The lines with the newlines that end them, whose concatenation is the text, and the lines
as a reader gets them: without the newline, and without a carriage return before it.
-/

namespace Lines

open Offsets

/-- `str::split_inclusive` at newlines -/
def splitInclusive : List Char → List (List Char)
  | [] => []
  | c :: t =>
    if c = '\n' then [c] :: splitInclusive t
    else
      match splitInclusive t with
      | [] => [[c]]
      | l :: ls => (c :: l) :: ls

/-- A line without its end. -/
def stripEnding (l : List Char) : List Char :=
  if l.getLast? = some '\n' then
    if l.dropLast.getLast? = some '\r' then l.dropLast.dropLast else l.dropLast
  else l

/-- `str::lines` -/
def lines (t : List Char) : List (List Char) := (splitInclusive t).map stripEnding

/-- The line ends in CR LF. -/
def crLf (l : List Char) : Bool := l.getLast? = some '\n' && l.dropLast.getLast? = some '\r'

variable {s t l m : List Char} {c : Char} {ls k : List (List Char)}

theorem flatten_splitInclusive (t : List Char) : (splitInclusive t).flatten = t := by
  induction t with
  | nil => rfl
  | cons c t ih =>
    rw [splitInclusive]
    split_ifs with hc
    · rw [List.flatten_cons, ih]
      rfl
    · cases hlines : splitInclusive t with
      | nil =>
        rw [hlines] at ih
        rw [← ih]
        rfl
      | cons l ls =>
        rw [hlines] at ih
        rw [← ih]
        rfl

theorem splitInclusive_eq_nil : splitInclusive t = [] ↔ t = [] := by
  constructor
  · intro h
    rw [← flatten_splitInclusive t, h]
    rfl
  · rintro rfl
    rfl

/-- Whole lines are lines before anything. -/
theorem splitInclusive_whole (h : Whole s) :
    splitInclusive (s ++ t) = splitInclusive s ++ splitInclusive t := by
  induction s with
  | nil => rfl
  | cons c s ih =>
    rw [List.cons_append, splitInclusive, splitInclusive, ih h.tail]
    split_ifs with hc
    · rfl
    · cases hlines : splitInclusive s with
      | nil =>
        -- a last line without a newline is not whole
        obtain rfl := splitInclusive_eq_nil.mp hlines
        exact absurd (List.mem_singleton.mp h.newline_mem).symm hc
      | cons l ls => rfl

theorem whole_append (hs : Whole s) (ht : Whole t) : Whole (s ++ t) := by
  rw [Whole, splitLine_whole hs]
  exact ht

theorem splitLine_of_notMem (h : '\n' ∉ t) : splitLine t = ([], t) := by
  induction t with
  | nil => rfl
  | cons c t ih =>
    rw [List.mem_cons, not_or] at h
    rw [splitLine, ih h.2]
    exact if_pos ⟨rfl, Ne.symm h.1⟩

/-- What there is to know about the first line. -/
theorem splitInclusive_cons (h : splitInclusive t = l :: ls) :
    splitInclusive ls.flatten = ls ∧ '\n' ∉ l.dropLast ∧ l ≠ [] ∧
      (ls ≠ [] → l.getLast? = some '\n') := by
  induction t generalizing l with
  | nil => cases h
  | cons c t ih =>
    rw [splitInclusive] at h
    split_ifs at h with hc
    · cases h
      refine ⟨by rw [flatten_splitInclusive], List.not_mem_nil, List.cons_ne_nil _ _, fun _ => ?_⟩
      rw [hc]
      rfl
    · cases hlines : splitInclusive t with
      | nil =>
        rw [hlines] at h
        cases h
        exact ⟨rfl, List.not_mem_nil, List.cons_ne_nil _ _, fun hne => absurd rfl hne⟩
      | cons l' ls' =>
        rw [hlines] at h
        cases h
        obtain ⟨hrest, hline, hne, hlast⟩ := ih hlines
        refine ⟨hrest, ?_, List.cons_ne_nil _ _, fun hls => ?_⟩
        · rw [List.dropLast_cons_of_ne_nil hne]
          exact List.not_mem_cons_of_ne_of_not_mem (Ne.symm hc) hline
        · rw [List.getLast?_cons, hlast hls]
          rfl

/-- A line that ends is whole. -/
theorem whole_of_getLast (h : l.getLast? = some '\n') : Whole l := by
  induction l with
  | nil => cases h
  | cons c l ih =>
    cases l with
    | nil =>
      cases h
      rfl
    | cons d l =>
      have hwhole : Whole (d :: l) := ih (by rwa [List.getLast?_cons_cons] at h)
      rw [Whole, splitLine]
      have hne : (splitLine (d :: l)).1 ≠ [] := by
        intro hnil
        have happend := splitLine_append (d :: l)
        rw [hnil, hwhole] at happend
        cases happend
      rw [if_neg fun hc => hne hc.1]
      exact hwhole

/-- **The lines before a line are whole**, and it begins what is left of the text. -/
theorem splitInclusive_mid (h : splitInclusive t = k ++ l :: ls) :
    Whole k.flatten ∧ splitInclusive (l ++ ls.flatten) = l :: ls := by
  induction k generalizing t with
  | nil =>
    refine ⟨whole_nil, ?_⟩
    rw [← List.flatten_cons, ← List.nil_append (l :: ls), ← h, flatten_splitInclusive]
  | cons m k ih =>
    obtain ⟨hrest, -, -, hlast⟩ := splitInclusive_cons h
    obtain ⟨hwhole, hlines⟩ := ih hrest
    refine ⟨?_, hlines⟩
    rw [List.flatten_cons]
    exact whole_append (whole_of_getLast (hlast (by simp))) hwhole

/-! ## Line ends -/

theorem stripEnding_prefix (l : List Char) : ∃ e, l = stripEnding l ++ e := by
  rw [stripEnding]
  split_ifs
  · obtain ⟨e, he⟩ := (List.dropLast_prefix l.dropLast).trans (List.dropLast_prefix l)
    exact ⟨e, he.symm⟩
  · obtain ⟨e, he⟩ := List.dropLast_prefix l
    exact ⟨e, he.symm⟩
  · exact ⟨[], (List.append_nil l).symm⟩

/-- No newline is left in a line. -/
theorem notMem_stripEnding (h : '\n' ∉ l.dropLast) : '\n' ∉ stripEnding l := by
  rw [stripEnding]
  split_ifs with hlast hcr
  · exact fun hmem => h (l.dropLast.dropLast_subset hmem)
  · exact h
  · intro hmem
    rcases List.eq_nil_or_concat l with rfl | ⟨b, c, rfl⟩
    · exact List.not_mem_nil hmem
    · rw [List.concat_eq_append] at *
      rw [List.dropLast_concat] at h
      rw [List.getLast?_concat] at hlast
      rcases List.mem_append.mp hmem with hb | hc
      · exact h hb
      · exact hlast (congrArg some (List.mem_singleton.mp hc).symm)

/-- **What a line end takes**: one byte, and one more in CR LF. -/
theorem len_stripEnding (h : l.getLast? = some '\n') :
    len (stripEnding l) + 1 + (if crLf l then 1 else 0) = len l := by
  have hnewline : Char.utf8Size '\n' = 1 := rfl
  have hreturn : Char.utf8Size '\r' = 1 := rfl
  obtain ⟨b, rfl⟩ := List.getLast?_eq_some_iff.mp h
  rw [stripEnding, if_pos h, crLf, h, List.dropLast_concat]
  by_cases hcr : b.getLast? = some '\r'
  · obtain ⟨a, rfl⟩ := List.getLast?_eq_some_iff.mp hcr
    rw [if_pos hcr, List.dropLast_concat, hcr]
    simp [hnewline, hreturn]
  · rw [if_neg hcr]
    simp [hnewline, hcr]

end Lines
