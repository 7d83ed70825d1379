import Mathlib.Data.List.Basic

/-!
# Scanning tokens off a stream

A cutter takes the next token off the front of its input, or waits for more. A
scan cuts until it has to wait; what it leaves is the input of the next scan. So
a stream that arrives in pieces is scanned like the whole stream as long as no
token that was cut at the end of a piece would have been cut differently with the
next piece in sight.
-/

namespace Scan

variable {α β : Type*}

/-- Takes a token off the front of its input. -/
structure Cutter (α β : Type*) where
  cut : List α → Option (β × List α)
  /-- A token uses up a part of the input that is not empty. -/
  splits : ∀ {xs b rest}, cut xs = some (b, rest) → ∃ pre, pre ≠ [] ∧ xs = pre ++ rest

variable {k : Cutter α β}

theorem Cutter.shorter {xs rest : List α} {b : β} (h : k.cut xs = some (b, rest)) :
    rest.length < xs.length := by
  obtain ⟨pre, hne, rfl⟩ := k.splits h
  have hpos : 0 < pre.length := List.length_pos_iff.mpr hne
  rw [List.length_append]
  omega

/-- At most `n` tokens, and what is left of the input. -/
def Cutter.tokens (k : Cutter α β) : ℕ → List α → List β × List α
  | 0, xs => ([], xs)
  | n + 1, xs =>
    match k.cut xs with
    | none => ([], xs)
    | some (b, rest) => (b :: (k.tokens n rest).1, (k.tokens n rest).2)

/-- All tokens of the input, and what is left of it. -/
def Cutter.scan (k : Cutter α β) (xs : List α) : List β × List α :=
  k.tokens xs.length xs

/-- There are never more tokens than there is input. -/
theorem tokens_of_length_le {n : ℕ} : ∀ {xs : List α}, xs.length ≤ n →
    k.tokens n xs = k.scan xs := by
  suffices ∀ m n (xs : List α), xs.length ≤ m → xs.length ≤ n → k.tokens m xs = k.tokens n xs by
    intro xs h
    exact this n xs.length xs h (Nat.le_refl _)
  intro m
  induction m with
  | zero =>
    intro n xs hm _
    obtain rfl := List.eq_nil_of_length_eq_zero (Nat.le_zero.mp hm)
    cases n with
    | zero => rfl
    | succ n =>
      have hcut : k.cut ([] : List α) = none := by
        cases hc : k.cut ([] : List α) with
        | none => rfl
        | some p =>
          have := Cutter.shorter hc
          simp at this
      simp only [Cutter.tokens, hcut]
  | succ m ih =>
    intro n xs hm hn
    cases hc : k.cut xs with
    | none => cases n <;> simp [Cutter.tokens, hc]
    | some p =>
      obtain ⟨b, rest⟩ := p
      have hlt := Cutter.shorter hc
      obtain ⟨n, rfl⟩ : ∃ n', n = n' + 1 := ⟨n - 1, by omega⟩
      simp only [Cutter.tokens, hc]
      rw [ih n rest (by omega) (by omega)]

theorem scan_of_none {xs : List α} (h : k.cut xs = none) : k.scan xs = ([], xs) := by
  unfold Cutter.scan
  cases xs <;> simp [Cutter.tokens, h]

theorem scan_of_some {xs rest : List α} {b : β} (h : k.cut xs = some (b, rest)) :
    k.scan xs = (b :: (k.scan rest).1, (k.scan rest).2) := by
  have hlt := Cutter.shorter h
  obtain ⟨n, hn⟩ : ∃ n, xs.length = n + 1 := ⟨xs.length - 1, by omega⟩
  rw [Cutter.scan, hn]
  simp only [Cutter.tokens, h]
  rw [tokens_of_length_le (by omega)]

/-- A scan stops where nothing more can be cut. -/
theorem cut_scan (xs : List α) : k.cut (k.scan xs).2 = none := by
  induction h : xs.length using Nat.strongRecOn generalizing xs with
  | ind n ih =>
    cases hc : k.cut xs with
    | none =>
      rw [scan_of_none hc]
      exact hc
    | some p =>
      obtain ⟨b, rest⟩ := p
      rw [scan_of_some hc]
      exact ih rest.length (h ▸ Cutter.shorter hc) rest rfl

/-- What a scan leaves is the end of its input. -/
theorem scan_suffix (xs : List α) : (k.scan xs).2 <:+ xs := by
  induction h : xs.length using Nat.strongRecOn generalizing xs with
  | ind n ih =>
    cases hc : k.cut xs with
    | none =>
      have hnone : (k.scan xs).2 = xs := by rw [scan_of_none hc]
      exact hnone.symm ▸ List.suffix_rfl
    | some p =>
      obtain ⟨b, rest⟩ := p
      obtain ⟨pre, -, hpre⟩ := k.splits hc
      rw [scan_of_some hc]
      refine (ih rest.length (h ▸ Cutter.shorter hc) rest rfl).trans ?_
      exact ⟨pre, hpre.symm⟩

/-- The next token of every part of `xs` is the same with `ys` behind it. -/
def Cutter.Steady (k : Cutter α β) (xs ys : List α) : Prop :=
  ∀ s b rest, s <:+ xs → k.cut s = some (b, rest) → k.cut (s ++ ys) = some (b, rest ++ ys)

/-- **A steady boundary is not seen.** Scanning on from what the first part left
gives what scanning both parts gives. -/
theorem scan_append {xs ys : List α} (h : k.Steady xs ys) :
    k.scan (xs ++ ys) =
      ((k.scan xs).1 ++ (k.scan ((k.scan xs).2 ++ ys)).1, (k.scan ((k.scan xs).2 ++ ys)).2) := by
  induction hn : xs.length using Nat.strongRecOn generalizing xs with
  | ind n ih =>
    cases hc : k.cut xs with
    | none =>
      rw [scan_of_none hc]
      simp
    | some p =>
      obtain ⟨b, rest⟩ := p
      obtain ⟨pre, -, hpre⟩ := k.splits hc
      have hsuf : rest <:+ xs := ⟨pre, hpre.symm⟩
      have hrest : k.Steady rest ys := fun s b r hs hcut => h s b r (hs.trans hsuf) hcut
      rw [scan_of_some (h xs b rest List.suffix_rfl hc), scan_of_some hc,
        ih rest.length (hn ▸ Cutter.shorter hc) hrest rfl]
      simp

end Scan
