import TokioCronet.Lib.Scan

/-!
# Sweeping blocks out of a list

A sweep looks for the next place, takes away the block that begins there, and goes on
behind it. Of what stands before a place a part is kept. The sweep fails at a place that
has no block.
-/

namespace Sweep

variable {α : Type*}

/-- What a sweep looks for, what it takes away, and what it keeps. -/
structure Sweeper (α : Type*) where
  /-- What stands before and after the next place. -/
  find : List α → Option (List α × List α)
  /-- What is left behind the block. -/
  block : List α → Option (List α)
  keep : List α → List α
  splits : ∀ {t b a rest}, find t = some (b, a) → block a = some rest →
    ∃ s, s ≠ [] ∧ t = s ++ rest

namespace Sweeper

variable {k : Sweeper α} {t b a rest : List α}

/-- One block. -/
def cutter (k : Sweeper α) : Scan.Cutter α (List α × List α) where
  cut t := (k.find t).bind fun p => (k.block p.2).map fun rest => (p, rest)
  splits := by
    rintro t ⟨b, a⟩ rest h
    obtain ⟨p, hfind, hmap⟩ := Option.bind_eq_some_iff.mp h
    obtain ⟨rest', hblock, heq⟩ := Option.map_eq_some_iff.mp hmap
    cases heq
    exact k.splits hfind hblock

/-- What is left of a list, unless the sweep fails. -/
def out (k : Sweeper α) (t : List α) : Option (List α) :=
  let swept := k.cutter.scan t
  match k.find swept.2 with
  | none => some (swept.1.flatMap (fun p => k.keep p.1) ++ swept.2)
  | some _ => none

/-- The places that the sweep comes to, with the one at which it fails. -/
def places (k : Sweeper α) (t : List α) : List (List α × List α) :=
  (k.cutter.scan t).1 ++ (k.find (k.cutter.scan t).2).toList

theorem cut_of_find (h : k.find t = some (b, a)) :
    k.cutter.cut t = (k.block a).map fun rest => ((b, a), rest) := by
  change (k.find t).bind _ = _
  rw [h]
  rfl

theorem scan_of_find_none (h : k.find t = none) : k.cutter.scan t = ([], t) := by
  refine Scan.scan_of_none ?_
  change (k.find t).bind _ = _
  rw [h]
  rfl

theorem scan_of_block_none (h : k.find t = some (b, a)) (hb : k.block a = none) :
    k.cutter.scan t = ([], t) := by
  refine Scan.scan_of_none ?_
  rw [cut_of_find h, hb]
  rfl

theorem scan_of_block (h : k.find t = some (b, a)) (hb : k.block a = some rest) :
    k.cutter.scan t = ((b, a) :: (k.cutter.scan rest).1, (k.cutter.scan rest).2) := by
  refine Scan.scan_of_some ?_
  rw [cut_of_find h, hb]
  rfl

theorem out_of_find_none (h : k.find t = none) : k.out t = some t := by
  simp only [out, scan_of_find_none h, h]
  rfl

theorem out_of_block_none (h : k.find t = some (b, a)) (hb : k.block a = none) :
    k.out t = none := by
  simp only [out, scan_of_block_none h hb, h]

theorem out_of_block (h : k.find t = some (b, a)) (hb : k.block a = some rest) :
    k.out t = (k.out rest).map fun s => k.keep b ++ s := by
  simp only [out, scan_of_block h hb]
  cases k.find (k.cutter.scan rest).2 with
  | none => simp
  | some _ => rfl

theorem places_of_find_none (h : k.find t = none) : k.places t = [] := by
  rw [places, scan_of_find_none h, h]
  rfl

theorem places_of_block_none (h : k.find t = some (b, a)) (hb : k.block a = none) :
    k.places t = [(b, a)] := by
  rw [places, scan_of_block_none h hb, h]
  rfl

theorem places_of_block (h : k.find t = some (b, a)) (hb : k.block a = some rest) :
    k.places t = (b, a) :: k.places rest := by
  rw [places, scan_of_block h hb]
  rfl

/-- **Induction along a sweep.** -/
theorem sweep_induction {P : List α → Prop} (k : Sweeper α) (hnone : ∀ t, k.find t = none → P t)
    (hfail : ∀ t b a, k.find t = some (b, a) → k.block a = none → P t)
    (hblock : ∀ t b a rest, k.find t = some (b, a) → k.block a = some rest → P rest → P t)
    (t : List α) : P t := by
  induction hn : t.length using Nat.strongRecOn generalizing t with
  | ind n ih =>
    cases hfind : k.find t with
    | none => exact hnone t hfind
    | some p =>
      obtain ⟨b, a⟩ := p
      cases hb : k.block a with
      | none => exact hfail t b a hfind hb
      | some rest =>
        refine hblock t b a rest hfind hb (ih rest.length ?_ rest rfl)
        obtain ⟨s, hne, rfl⟩ := k.splits hfind hb
        have hpos : 0 < s.length := List.length_pos_iff.mpr hne
        rw [← hn, List.length_append]
        omega

/-- A sweep fails at a place without a block. -/
theorem out_eq_none : k.out t = none ↔ ∃ p ∈ k.places t, k.block p.2 = none := by
  induction t using sweep_induction k with
  | hnone t h =>
    rw [out_of_find_none h, places_of_find_none h]
    simp
  | hfail t b a h hb =>
    rw [out_of_block_none h hb, places_of_block_none h hb]
    simp [hb]
  | hblock t b a rest h hb ih =>
    rw [out_of_block h hb, places_of_block h hb, Option.map_eq_none_iff, ih]
    simp [hb]

theorem places_eq_nil : k.places t = [] ↔ k.find t = none := by
  cases h : k.find t with
  | none => simp [places_of_find_none h]
  | some p =>
    obtain ⟨b, a⟩ := p
    cases hb : k.block a with
    | none => simp [places_of_block_none h hb]
    | some rest => simp [places_of_block h hb]

end Sweeper

end Sweep
