import Mathlib.Data.List.Basic

/-!
# Brackets that match

A sequence in which some elements open and some close. Counting up and down finds the
element that closes; a grammar says what a balanced sequence is. The two agree: what the
count stops at is the one closing element that has a balanced sequence before it.
-/

namespace Brackets

/-- What an element does. -/
inductive Side where
  | opening
  | closing
  | neither
  deriving DecidableEq

variable {α : Type*} (side : α → Side)

/-- Every bracket is closed inside of the sequence. -/
inductive Balanced : List α → Prop where
  | nil : Balanced []
  | plain {a : α} {s : List α} : side a = .neither → Balanced s → Balanced (a :: s)
  | block {a b : α} {s t : List α} : side a = .opening → side b = .closing → Balanced s →
      Balanced t → Balanced (a :: (s ++ b :: t))

/-- What stands before an element that closes `depth` brackets more than it opens: a balanced
sequence, then `depth` times a closing element and a balanced sequence. -/
inductive Closes : ℕ → List α → Prop where
  | zero {s : List α} : Balanced side s → Closes 0 s
  | succ {depth : ℕ} {b : α} {s t : List α} : Balanced side s → side b = .closing →
      Closes depth t → Closes (depth + 1) (s ++ b :: t)

/-- The parts before and after the element that closes `depth + 1` brackets, and that
element. -/
def splitClose : ℕ → List α → Option (List α × α × List α)
  | _, [] => none
  | depth, a :: t =>
    match side a with
    | .neither => (splitClose depth t).map fun p => (a :: p.1, p.2)
    | .opening => (splitClose (depth + 1) t).map fun p => (a :: p.1, p.2)
    | .closing =>
      match depth with
      | 0 => some ([], a, t)
      | depth + 1 => (splitClose depth t).map fun p => (a :: p.1, p.2)

variable {side} {depth : ℕ} {a b : α} {s t body after : List α}

/-! ## One element more -/

theorem Closes.plain (ha : side a = .neither) (h : Closes side depth s) :
    Closes side depth (a :: s) := by
  cases h with
  | zero hs => exact .zero (.plain ha hs)
  | succ hs hb ht => exact .succ (.plain ha hs) hb ht

theorem Closes.opening (ha : side a = .opening) (h : Closes side (depth + 1) s) :
    Closes side depth (a :: s) := by
  cases h with
  | @succ _ b s t hs hb ht =>
    cases ht with
    | zero ht => exact .zero (.block ha hb hs ht)
    | @succ _ b' s' t' hs' hb' ht' =>
      have h := Closes.succ (Balanced.block ha hb hs hs') hb' ht'
      rwa [List.cons_append, List.append_assoc, List.cons_append] at h

theorem Closes.closing (hb : side b = .closing) (h : Closes side depth s) :
    Closes side (depth + 1) (b :: s) := .succ .nil hb h

/-- A balanced sequence is passed over. -/
theorem splitClose_balanced (h : Balanced side s) :
    splitClose side depth (s ++ t) = (splitClose side depth t).map fun p => (s ++ p.1, p.2) := by
  induction h generalizing depth t with
  | nil =>
    rw [List.nil_append]
    exact (congrFun Option.map_id _).symm
  | @plain a s ha _ ih =>
    simp only [List.cons_append, splitClose, ha]
    rw [ih, Option.map_map]
    rfl
  | @block a b s u ha hb _ _ ihs ihu =>
    simp only [List.cons_append, List.append_assoc, splitClose, ha]
    rw [ihs]
    simp only [splitClose, hb]
    rw [ihu, Option.map_map, Option.map_map, Option.map_map]
    refine congrArg (Option.map · _) (funext fun p => ?_)
    simp

theorem splitClose_closes (h : splitClose side depth s = some (body, b, after)) :
    s = body ++ b :: after ∧ side b = .closing ∧ Closes side depth body := by
  induction s generalizing depth body with
  | nil => cases h
  | cons a t ih =>
    -- what goes on behind `a` brings `a` back in front
    have hmap : ∀ {d : ℕ}, (splitClose side d t).map (fun p => (a :: p.1, p.2)) =
        some (body, b, after) → ∃ rest, body = a :: rest ∧ t = rest ++ b :: after ∧
          side b = .closing ∧ Closes side d rest := by
      intro d hd
      obtain ⟨⟨rest, b', after'⟩, hsome, heq⟩ := Option.map_eq_some_iff.mp hd
      cases heq
      exact ⟨rest, rfl, ih hsome⟩
    cases ha : side a with
    | neither =>
      simp only [splitClose, ha] at h
      obtain ⟨rest, rfl, rfl, hb, hrest⟩ := hmap h
      exact ⟨rfl, hb, hrest.plain ha⟩
    | opening =>
      simp only [splitClose, ha] at h
      obtain ⟨rest, rfl, rfl, hb, hrest⟩ := hmap h
      exact ⟨rfl, hb, hrest.opening ha⟩
    | closing =>
      simp only [splitClose, ha] at h
      cases depth with
      | zero =>
        cases h
        exact ⟨rfl, ha, .zero .nil⟩
      | succ depth =>
        obtain ⟨rest, rfl, rfl, hb, hrest⟩ := hmap h
        exact ⟨rfl, hb, hrest.closing ha⟩

/-- **The count stops at the closing element that has a balanced sequence before it.** -/
theorem splitClose_eq_some_iff :
    splitClose side 0 s = some (body, b, after) ↔
      s = body ++ b :: after ∧ side b = .closing ∧ Balanced side body := by
  constructor
  · intro h
    obtain ⟨hs, hb, hbody⟩ := splitClose_closes h
    cases hbody with
    | zero hbody => exact ⟨hs, hb, hbody⟩
  · rintro ⟨rfl, hb, hbody⟩
    rw [splitClose_balanced hbody]
    simp [splitClose, hb]

end Brackets
