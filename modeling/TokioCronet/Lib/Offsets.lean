import Mathlib.Algebra.GroupWithZero.Nat
import Mathlib.Data.List.Basic

/-!
# Texts and byte offsets

A text is a list of characters; offsets into it count bytes of UTF-8. What is asked for by
an offset is answered by a split of the text: an offset that is the length of a first part
leads to the second part, and one inside of a character leads nowhere.
-/

namespace Offsets

/-- The bytes of a text. -/
def len (t : List Char) : ℕ := (t.map Char.utf8Size).sum

@[simp] theorem len_nil : len [] = 0 := rfl

@[simp] theorem len_cons (c : Char) (t : List Char) : len (c :: t) = c.utf8Size + len t := rfl

@[simp] theorem len_append (s t : List Char) : len (s ++ t) = len s + len t := by
  rw [len, List.map_append, List.sum_append, len, len]

/-- The two parts of a text at an offset; none where a slice would panic. -/
def splitAt : ℕ → List Char → Option (List Char × List Char)
  | 0, t => some ([], t)
  | _ + 1, [] => none
  | k + 1, c :: t =>
    if c.utf8Size ≤ k + 1 then (splitAt (k + 1 - c.utf8Size) t).map fun p => (c :: p.1, p.2)
    else none

/-- **The offset of the second part leads to it.** -/
theorem splitAt_len (s t : List Char) : splitAt (len s) (s ++ t) = some (s, t) := by
  induction s with
  | nil => cases t <;> rfl
  | cons c s ih =>
    have hpos := c.utf8Size_pos
    obtain ⟨k, hk⟩ : ∃ k, len (c :: s) = k + 1 := ⟨len (c :: s) - 1, by rw [len_cons]; omega⟩
    have hrest : k + 1 - c.utf8Size = len s := by
      rw [← hk, len_cons]
      omega
    rw [List.cons_append, hk, splitAt, if_pos (by rw [← hk, len_cons]; omega), hrest, ih]
    rfl

/-- The parts before and after the first occurrence. -/
def splitFirst (needle : List Char) : List Char → Option (List Char × List Char)
  | [] => if needle = [] then some ([], []) else none
  | c :: t =>
    if needle <+: c :: t then some ([], (c :: t).drop needle.length)
    else (splitFirst needle t).map fun p => (c :: p.1, p.2)

/-- `str::find` -/
def find (needle t : List Char) : Option ℕ := (splitFirst needle t).map fun p => len p.1

/-- `str::rfind` of a character -/
def rfind (c : Char) : List Char → Option ℕ
  | [] => none
  | x :: t =>
    match rfind c t with
    | some k => some (x.utf8Size + k)
    | none => if x = c then some 0 else none

section Occurrences

variable {needle t b a : List Char}

theorem splitFirst_eq (h : splitFirst needle t = some (b, a)) : t = b ++ needle ++ a := by
  induction t generalizing b a with
  | nil =>
    rw [splitFirst] at h
    split_ifs at h with hneedle
    cases h
    rw [hneedle]
    rfl
  | cons c t ih =>
    rw [splitFirst] at h
    split_ifs at h with hhere
    · cases h
      obtain ⟨rest, hrest⟩ := hhere
      rw [← hrest, List.drop_left]
      rfl
    · obtain ⟨⟨b', a'⟩, hp, heq⟩ := Option.map_eq_some_iff.mp h
      cases heq
      rw [ih hp]
      rfl

/-- The first occurrence is not after any other. -/
theorem splitFirst_le {b' a' : List Char} (h : t = b' ++ needle ++ a') :
    ∃ b a, splitFirst needle t = some (b, a) ∧ b <+: b' := by
  induction t generalizing b' with
  | nil =>
    have hempty : b' ++ needle ++ a' = [] := h.symm
    have hneedle : needle = [] := by
      rw [List.append_eq_nil_iff, List.append_eq_nil_iff] at hempty
      exact hempty.1.2
    exact ⟨[], [], by rw [splitFirst, if_pos hneedle], List.nil_prefix⟩
  | cons c t ih =>
    by_cases hhere : needle <+: c :: t
    · exact ⟨[], _, by rw [splitFirst, if_pos hhere], List.nil_prefix⟩
    · cases b' with
      | nil => exact absurd ⟨a', h.symm⟩ hhere
      | cons d b' =>
        rw [List.cons_append, List.cons_append] at h
        obtain ⟨rfl, ht⟩ := List.cons.inj h
        obtain ⟨b, a, hsplit, hb⟩ := ih ht
        refine ⟨c :: b, a, ?_, List.cons_prefix_cons.mpr ⟨rfl, hb⟩⟩
        rw [splitFirst, if_neg hhere, hsplit]
        rfl

theorem splitFirst_eq_none : splitFirst needle t = none ↔ ¬ needle <:+: t := by
  constructor
  · rintro h ⟨b, a, heq⟩
    obtain ⟨_, _, hsome, -⟩ := splitFirst_le heq.symm
    rw [h] at hsome
    cases hsome
  · intro h
    cases hsplit : splitFirst needle t with
    | none => rfl
    | some p => exact absurd ⟨p.1, p.2, (splitFirst_eq hsplit).symm⟩ h

end Occurrences

/-! ## Lines -/

/-- The whole lines of a text, and what it has of another one. -/
def splitLine : List Char → List Char × List Char
  | [] => ([], [])
  | c :: t =>
    if (splitLine t).1 = [] ∧ c ≠ '\n' then ([], c :: (splitLine t).2)
    else (c :: (splitLine t).1, (splitLine t).2)

theorem splitLine_append (t : List Char) : (splitLine t).1 ++ (splitLine t).2 = t := by
  induction t with
  | nil => rfl
  | cons c t ih =>
    rw [splitLine]
    split_ifs with h
    · rw [h.1, List.nil_append] at ih
      rw [ih]
      rfl
    · rw [List.cons_append, ih]

/-- Every line of the text is whole. -/
def Whole (t : List Char) : Prop := (splitLine t).2 = []

theorem whole_nil : Whole [] := rfl

theorem whole_splitLine (t : List Char) : Whole (splitLine t).1 := by
  induction t with
  | nil => rfl
  | cons c t ih =>
    rw [splitLine]
    split_ifs with h
    · rfl
    · rw [Whole, splitLine, if_neg, ih]
      rintro ⟨hnil, hc⟩
      refine h ⟨?_, hc⟩
      have happend := splitLine_append (splitLine t).1
      rw [hnil, ih] at happend
      exact happend.symm

section Whole

variable {needle t s : List Char} {c : Char}

theorem Whole.tail (h : Whole (c :: s)) : Whole s := by
  rw [Whole, splitLine] at h
  split_ifs at h with hc
  exact h

theorem Whole.newline_mem (h : Whole (c :: s)) : '\n' ∈ c :: s := by
  induction s generalizing c with
  | nil =>
    rw [Whole, splitLine] at h
    split_ifs at h with hc
    rw [not_and, not_not] at hc
    rw [hc rfl]
    exact List.mem_cons_self
  | cons d s ih => exact List.mem_cons_of_mem c (ih h.tail)

/-- Whole lines stay what they are before anything. -/
theorem splitLine_whole (h : Whole s) :
    splitLine (s ++ t) = (s ++ (splitLine t).1, (splitLine t).2) := by
  induction s with
  | nil => rfl
  | cons c s ih =>
    rw [List.cons_append, splitLine, ih h.tail]
    refine if_neg fun ⟨hnil, hc⟩ => ?_
    obtain ⟨rfl, -⟩ := List.append_eq_nil_iff.mp hnil
    exact hc (List.mem_singleton.mp h.newline_mem).symm

/-- What has no newline is not found across the end of a line. -/
theorem splitFirst_whole (hline : '\n' ∉ needle) (h : Whole s) (hs : ¬ needle <:+: s) :
    splitFirst needle (s ++ t) = (splitFirst needle t).map fun p => (s ++ p.1, p.2) := by
  induction s with
  | nil => simp
  | cons c s ih =>
    have hhere : ¬ needle <+: c :: (s ++ t) := by
      intro hpre
      rcases List.prefix_or_prefix_of_prefix hpre (List.prefix_append (c :: s) t) with hpre | hpre
      · exact hs hpre.isInfix
      · exact hline (hpre.subset h.newline_mem)
    have hs' : ¬ needle <:+: s := fun hin => hs (hin.trans (List.suffix_cons c s).isInfix)
    rw [List.cons_append, splitFirst, if_neg hhere, ih h.tail hs', Option.map_map]
    rfl

theorem not_infix_whole (hline : '\n' ∉ needle) (h : Whole s) (hs : ¬ needle <:+: s)
    (ht : ¬ needle <:+: t) : ¬ needle <:+: s ++ t := by
  rw [← splitFirst_eq_none] at ht ⊢
  rw [splitFirst_whole hline h hs, ht]
  rfl

end Whole

/-- Where the last line starts. -/
theorem rfind_newline (t : List Char) :
    (rfind '\n' t).elim 0 (· + 1) = len (splitLine t).1 := by
  induction t with
  | nil => rfl
  | cons c t ih =>
    rw [rfind, splitLine]
    cases hfound : rfind '\n' t with
    | none =>
      rw [hfound] at ih
      have hnone : (splitLine t).1 = [] := by
        cases hlines : (splitLine t).1 with
        | nil => rfl
        | cons d l =>
          have hpos := d.utf8Size_pos
          rw [hlines, len_cons] at ih
          simp only [Option.elim_none] at ih
          omega
      by_cases hc : c = '\n'
      · subst hc
        rw [if_pos rfl, if_neg (by simp), hnone]
        rfl
      · rw [if_neg hc, if_pos ⟨hnone, hc⟩]
        rfl
    | some k =>
      rw [hfound] at ih
      simp only [Option.elim_some] at ih ⊢
      have hsome : (splitLine t).1 ≠ [] := by
        intro hnil
        rw [hnil] at ih
        cases ih
      rw [if_neg fun h => hsome h.1, len_cons]
      omega

end Offsets
