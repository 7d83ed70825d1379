import Mathlib.Data.List.Sort

/-!
# Upper medians

The upper median of a list is the element with at most half of the list below it and more
than half of the list not above it. There is one for every list that is not empty; a sorted
list has it in its middle.
-/

namespace Median

variable {α : Type*} [LinearOrder α] {l l' : List α} {m m' : α}

/-- `m` is the upper median of `l`. -/
structure IsUpper (m : α) (l : List α) : Prop where
  /-- It is one of the elements. -/
  mem : m ∈ l
  /-- At most half of them are below it. -/
  below : 2 * l.countP (· < m) ≤ l.length
  /-- More than half of them are up to it. -/
  reached : l.length < 2 * l.countP (· ≤ m)

theorem IsUpper.perm (h : IsUpper m l) (hperm : l.Perm l') : IsUpper m l' where
  mem := hperm.mem_iff.mp h.mem
  below := by
    rw [← hperm.countP_eq, ← hperm.length_eq]
    exact h.below
  reached := by
    rw [← hperm.countP_eq, ← hperm.length_eq]
    exact h.reached

theorem IsUpper.le (h : IsUpper m l) (h' : IsUpper m' l) : m ≤ m' := by
  by_contra hlt
  have hle : l.countP (· ≤ m') ≤ l.countP (· < m) := by
    refine List.countP_mono_left fun x _ hx => ?_
    exact decide_eq_true (lt_of_le_of_lt (of_decide_eq_true hx) (not_le.mp hlt))
  have hbelow := h.below
  have hreached := h'.reached
  omega

/-- **A list has at most one upper median.** -/
theorem IsUpper.unique (h : IsUpper m l) (h' : IsUpper m' l) : m = m' :=
  le_antisymm (h.le h') (h'.le h)

/-- An element in the middle, with what is not above it before it and what is not below it
after it. -/
theorem isUpper_append {low high : List α} (hlow : ∀ x ∈ low, x ≤ m) (hhigh : ∀ x ∈ high, m ≤ x)
    (hlen : (low ++ m :: high).length / 2 = low.length) : IsUpper m (low ++ m :: high) := by
  refine ⟨List.mem_append_right low List.mem_cons_self, ?_, ?_⟩
  · have hnone : (m :: high).countP (· < m) = 0 := by
      rw [List.countP_eq_zero]
      intro x hx
      rcases List.mem_cons.mp hx with rfl | hx
      · simp
      · simpa using hhigh x hx
    have hle : low.countP (· < m) ≤ low.length := List.countP_le_length
    rw [List.countP_append]
    omega
  · have hall : low.countP (· ≤ m) = low.length := by
      rw [List.countP_eq_length]
      intro x hx
      simpa using hlow x hx
    rw [List.countP_append, List.countP_cons_of_pos (by simp)]
    omega

/-- **The middle of a sorted list is its upper median.** -/
theorem isUpper_of_sorted (hsorted : l.Pairwise (· ≤ ·)) (hlt : l.length / 2 < l.length) :
    IsUpper l[l.length / 2] l := by
  have hsplit := List.take_append_drop (l.length / 2) l
  rw [List.drop_eq_getElem_cons hlt] at hsplit
  have hpair := hsorted
  rw [← hsplit, List.pairwise_append, List.pairwise_cons] at hpair
  obtain ⟨-, ⟨habove, -⟩, hbefore⟩ := hpair
  have hmiddle := isUpper_append (fun x hx => hbefore x hx _ List.mem_cons_self) habove (by
    rw [hsplit, List.length_take]
    omega)
  rwa [hsplit] at hmiddle

/-- Sorting a list brings its upper median into the middle. -/
theorem exists_of_sort (hne : l ≠ []) :
    ∃ m, (l.mergeSort)[l.length / 2]? = some m ∧ IsUpper m l := by
  have hperm : l.mergeSort.Perm l := List.mergeSort_perm l _
  have hpos : 0 < l.length := List.length_pos_iff.mpr hne
  have hlt : l.mergeSort.length / 2 < l.mergeSort.length := by
    rw [hperm.length_eq]
    omega
  have hupper := isUpper_of_sorted (List.pairwise_mergeSort' (· ≤ ·) l) hlt
  refine ⟨_, ?_, hupper.perm hperm⟩
  rw [← hperm.length_eq]
  exact List.getElem?_eq_getElem hlt

/-- What a median says of a list that may be empty. -/
def Describes (l : List α) : Option α → Prop
  | none => l = []
  | some m => IsUpper m l

end Median
