import Mathlib.Data.List.Lex
import Mathlib.Data.List.Sort

/-!
# The order of joined texts

Pieces joined by a separator that is smaller than every letter are in the lexicographic
order of their lists of pieces. What a map does to a lexicographic order is decided where
two lists differ first.
-/

namespace Joined

/-- What follows the first piece. -/
theorem intercalate_cons {α : Type*} (sep : α) (a : List α) (l : List (List α)) :
    ∃ r, (r = [] ∧ l = [] ∨ r = sep :: [sep].intercalate l ∧ l ≠ []) ∧
      [sep].intercalate (a :: l) = a ++ r := by
  cases l with
  | nil => exact ⟨[], .inl ⟨rfl, rfl⟩, by simp [List.intercalate]⟩
  | cons b l => exact ⟨_, .inr ⟨rfl, List.cons_ne_nil b l⟩, by simp [List.intercalate]⟩

section Order

variable {α β : Type*} [LinearOrder α] [LinearOrder β]

/-- Two words, each followed by nothing or by the separator. -/
theorem append_lt_append {sep : α} {a b r s : List α} (ha : ∀ x ∈ a, sep < x)
    (hb : ∀ x ∈ b, sep < x) (hr : r = [] ∨ ∃ r', r = sep :: r')
    (hs : s = [] ∨ ∃ s', s = sep :: s') :
    a ++ r < b ++ s ↔ a < b ∨ a = b ∧ r < s := by
  induction a generalizing b with
  | nil =>
    cases b with
    | nil => simp
    | cons y b =>
      have hy : sep < y := hb y List.mem_cons_self
      rcases hr with rfl | ⟨r', rfl⟩
      · simp
      · simp [List.cons_lt_cons_iff, hy]
  | cons x a ih =>
    have hx : sep < x := ha x List.mem_cons_self
    cases b with
    | nil =>
      rcases hs with rfl | ⟨s', rfl⟩
      · simp
      · simp [List.cons_lt_cons_iff, hx.not_gt, hx.ne']
    | cons y b =>
      have ih := ih (b := b) (fun z hz => ha z (List.mem_cons_of_mem x hz))
        fun z hz => hb z (List.mem_cons_of_mem y hz)
      rw [List.cons_append, List.cons_append, List.cons_lt_cons_iff, List.cons_lt_cons_iff, ih,
        List.cons.injEq]
      tauto

/-- **Joined texts are in the order of their pieces.** -/
theorem intercalate_lt_intercalate {sep : α} {l m : List (List α)} (hl : l ≠ []) (hm : m ≠ [])
    (hls : ∀ a ∈ l, ∀ x ∈ a, sep < x) (hms : ∀ a ∈ m, ∀ x ∈ a, sep < x) :
    [sep].intercalate l < [sep].intercalate m ↔ l < m := by
  induction l generalizing m with
  | nil => exact absurd rfl hl
  | cons a l ih =>
    cases m with
    | nil => exact absurd rfl hm
    | cons b m =>
      obtain ⟨r, hr, hjoinl⟩ := intercalate_cons sep a l
      obtain ⟨s, hs, hjoinm⟩ := intercalate_cons sep b m
      rw [hjoinl, hjoinm, append_lt_append (hls a List.mem_cons_self) (hms b List.mem_cons_self)
        (hr.imp And.left fun h => ⟨_, h.1⟩) (hs.imp And.left fun h => ⟨_, h.1⟩),
        List.cons_lt_cons_iff]
      refine or_congr_right (and_congr_right fun _ => ?_)
      rcases hr with ⟨rfl, rfl⟩ | ⟨rfl, hl⟩ <;> rcases hs with ⟨rfl, rfl⟩ | ⟨rfl, hm⟩
      · simp
      · obtain ⟨c, m, rfl⟩ := List.exists_cons_of_ne_nil hm
        simp
      · simp
      · rw [List.cons_lt_cons_iff, ih hl hm (fun c hc => hls c (List.mem_cons_of_mem a hc))
          fun c hc => hms c (List.mem_cons_of_mem b hc)]
        simp

/-- Words of one length are decided before what follows them. -/
theorem append_lt_append_of_length {l m r s : List α} (hlen : l.length = m.length) (h : l < m) :
    l ++ r < m ++ s := by
  induction l generalizing m with
  | nil =>
    obtain rfl := List.eq_nil_of_length_eq_zero hlen.symm
    exact absurd h (List.not_lt_nil _)
  | cons a l ih =>
    cases m with
    | nil => exact absurd h (List.not_lt_nil _)
    | cons b m =>
      rw [List.cons_append, List.cons_append, List.cons_lt_cons_iff]
      refine (List.cons_lt_cons_iff.mp h).imp_right fun ⟨hab, hlt⟩ => ⟨hab, ih ?_ hlt⟩
      exact Nat.succ.inj hlen

/-- **Where a map turns a lexicographic order round**: at the first difference. -/
theorem map_lt_map_of_lt {f : α → β} (hf : Function.Injective f) {l m : List α} :
    l < m ∧ m.map f < l.map f ↔ ∃ p a b s t, l = p ++ a :: s ∧ m = p ++ b :: t ∧
      a < b ∧ f b < f a := by
  constructor
  · rintro ⟨hlt, hgt⟩
    induction l generalizing m with
    | nil =>
      rw [List.map_nil] at hgt
      exact absurd hgt (List.not_lt_nil _)
    | cons a l ih =>
      cases m with
      | nil => exact absurd hlt (List.not_lt_nil _)
      | cons b m =>
        rw [List.map_cons, List.map_cons, List.cons_lt_cons_iff] at hgt
        rcases List.cons_lt_cons_iff.mp hlt with hab | ⟨rfl, hlt'⟩
        · refine ⟨[], a, b, l, m, rfl, rfl, hab, ?_⟩
          exact hgt.resolve_right fun h => hab.ne' (hf h.1)
        · have hgt := (hgt.resolve_left (lt_irrefl _)).2
          obtain ⟨p, x, y, s, t, rfl, rfl, hxy, hfxy⟩ := ih hlt' hgt
          exact ⟨a :: p, x, y, s, t, rfl, rfl, hxy, hfxy⟩
  · rintro ⟨p, a, b, s, t, rfl, rfl, hab, hfab⟩
    rw [List.map_append, List.map_append]
    exact ⟨List.Lex.append_left _ (.rel hab) p, List.Lex.append_left _ (.rel hfab) _⟩

end Order

section Greatest

variable {α : Type*} [LinearOrder α] {l : List α} {a : α}

/-- The last of a sorted list. -/
def last (l : List α) : Option α := (l.mergeSort (· ≤ ·)).getLast?

theorem last_eq_none : last l = none ↔ l = [] := by
  rw [last, List.getLast?_eq_none_iff, ← List.length_eq_zero_iff, List.length_mergeSort,
    List.length_eq_zero_iff]

/-- It is the greatest. -/
theorem last_eq_some : last l = some a ↔ a ∈ l ∧ ∀ b ∈ l, b ≤ a := by
  have hmax : ∀ {a}, last l = some a → a ∈ l ∧ ∀ b ∈ l, b ≤ a := by
    intro a ha
    obtain ⟨init, heq⟩ := List.getLast?_eq_some_iff.mp ha
    have hsorted : (init ++ [a]).Pairwise (· ≤ ·) := heq ▸ List.pairwise_mergeSort' (· ≤ ·) l
    have hmem : ∀ {b}, b ∈ l ↔ b ∈ init ++ [a] := by
      intro b
      rw [← heq, List.mem_mergeSort]
    refine ⟨hmem.mpr (List.mem_append_right init (List.mem_singleton_self a)), fun b hb => ?_⟩
    rcases List.mem_append.mp (hmem.mp hb) with hb | hb
    · exact (List.pairwise_append.mp hsorted).2.2 b hb a (List.mem_singleton_self a)
    · exact (List.mem_singleton.mp hb).le
  refine ⟨hmax, fun ⟨ha, hle⟩ => ?_⟩
  cases hlast : last l with
  | none =>
    rw [last_eq_none.mp hlast] at ha
    cases ha
  | some b =>
    obtain ⟨hb, hle'⟩ := hmax hlast
    rw [(hle b hb).antisymm (hle' a ha)]

end Greatest

end Joined
