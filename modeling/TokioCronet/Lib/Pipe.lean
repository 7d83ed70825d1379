import Mathlib.Data.List.Infix
import Mathlib.Data.List.Nodup
import Mathlib.Logic.Relation

/-!
# Pipes

A pipe receives pieces and hands on what is in them. One piece may be open, with a part
of it left over; the others wait behind it. If the open piece is always finished before
the next one is touched, what was handed on is a prefix of what was received. A piece that
is handed on past what is left over breaks this, and if all that is received is different
it can be seen to.
-/

namespace Pipe

/-- What is seen of a pipe. -/
structure View (β : Type*) where
  received : List β
  returned : List β
  current : List β
  waiting : List (List β)

variable {β : Type*} {v v' : View β}

/-- What was handed on is a prefix of what was received. -/
def View.InOrder (v : View β) : Prop := v.returned <+: v.received

/-- Nothing is lost: it was handed on, is left over, or waits, in this order. -/
def View.Kept (v : View β) : Prop := v.received = v.returned ++ v.current ++ v.waiting.flatten

/-- A pipe moves something to where it comes next. -/
inductive Move : View β → View β → Prop
  | arrives {v : View β} (piece : List β) :
      Move v { v with received := v.received ++ piece, waiting := v.waiting ++ [piece] }
  | opens {v : View β} {piece : List β} {waiting : List (List β)} :
      v.current = [] → v.waiting = piece :: waiting →
      Move v { v with current := piece, waiting := waiting }
  | returns {v : View β} {now later : List β} : v.current = now ++ later →
      Move v { v with returned := v.returned ++ now, current := later }
  | drops {v : View β} {waiting : List (List β)} : v.waiting = [] :: waiting →
      Move v { v with waiting := waiting }

/-- A pipe hands on a piece past what is left over. -/
inductive Skip : View β → View β → Prop
  | passes {v : View β} {piece : List β} {waiting : List (List β)} :
      v.current ≠ [] → piece ≠ [] → v.waiting = piece :: waiting →
      Skip v { v with returned := v.returned ++ piece, waiting := waiting }

theorem View.Kept.inOrder (h : v.Kept) : v.InOrder := by
  refine ⟨v.current ++ v.waiting.flatten, ?_⟩
  rw [← List.append_assoc]
  exact h.symm

/-- **A move loses nothing.** -/
theorem View.Kept.move (h : v.Kept) (hm : Move v v') : v'.Kept := by
  induction hm with
  | arrives piece =>
    show v.received ++ piece = v.returned ++ v.current ++ (v.waiting ++ [piece]).flatten
    rw [List.flatten_append, List.flatten_singleton, ← List.append_assoc, ← h]
  | @opens piece waiting hc hw =>
    show v.received = v.returned ++ piece ++ waiting.flatten
    rw [h, hc, hw, List.append_nil, List.flatten_cons, List.append_assoc]
  | @returns now later hc =>
    show v.received = v.returned ++ now ++ later ++ v.waiting.flatten
    rw [h, hc, List.append_assoc v.returned now later]
  | @drops waiting hw =>
    show v.received = v.returned ++ v.current ++ waiting.flatten
    rw [h, hw]
    rfl

theorem View.Kept.moves (h : v.Kept) (hm : Relation.ReflTransGen Move v v') : v'.Kept := by
  induction hm with
  | refl => exact h
  | tail _ hm ih => exact ih.move hm

theorem Move.received (h : Move v v') : v.received <+: v'.received := by
  cases h with
  | arrives piece => exact List.prefix_append _ _
  | opens | returns | drops => exact List.prefix_rfl

theorem moves_received (h : Relation.ReflTransGen Move v v') : v.received <+: v'.received := by
  induction h with
  | refl => exact List.prefix_rfl
  | tail _ hm ih => exact ih.trans hm.received

theorem Skip.received (h : Skip v v') : v'.received = v.received := by
  cases h
  rfl

/-- **A skip can be seen** where all that is received is different. -/
theorem Skip.not_inOrder (hs : Skip v v') (h : v.Kept) (hd : v.received.Nodup) : ¬ v'.InOrder := by
  induction hs with
  | @passes piece waiting hcurrent hpiece hw =>
    intro hin
    obtain ⟨x, current, hx⟩ := List.exists_cons_of_ne_nil hcurrent
    obtain ⟨y, piece, rfl⟩ := List.exists_cons_of_ne_nil hpiece
    have hreceived : v.received =
        v.returned ++ (x :: (current ++ (y :: piece ++ waiting.flatten))) := by
      rw [h, hx, hw, List.append_assoc]
      rfl
    have hin' : v.returned ++ y :: piece <+: v.received := hin
    rw [hreceived, List.prefix_append_right_inj, List.cons_prefix_cons] at hin'
    -- the first of the piece would be the first of what is left over
    obtain ⟨rfl, -⟩ := hin'
    rw [hreceived] at hd
    have hnot := (List.nodup_cons.mp (List.nodup_append.mp hd).2.1).1
    exact hnot (List.mem_append_right _ List.mem_cons_self)

section Runs

variable {σ α : Type*} {apply : σ → α → σ} {view : σ → View β} {Skips : σ → α → Prop}

/-- A machine that is a pipe: an action is a skip, or it consists of moves. -/
structure Machine (apply : σ → α → σ) (view : σ → View β) (Skips : σ → α → Prop) : Prop where
  /-- An action that is no skip consists of moves. -/
  moves : ∀ {s a}, ¬ Skips s a → Relation.ReflTransGen Move (view s) (view (apply s a))
  /-- A skip is one. -/
  skips : ∀ {s a}, Skips s a → Skip (view s) (view (apply s a))

theorem Machine.received_step (h : Machine apply view Skips) (s : σ) (a : α) :
    (view s).received <+: (view (apply s a)).received := by
  by_cases hs : Skips s a
  · rw [(h.skips hs).received]
  · exact moves_received (h.moves hs)

theorem Machine.received_run (h : Machine apply view Skips) (l : List α) :
    ∀ s, (view s).received <+: (view (l.foldl apply s)).received := by
  induction l with
  | nil => exact fun s => List.prefix_rfl
  | cons a l ih => exact fun s => (h.received_step s a).trans (ih (apply s a))

/-- **A run is in order at every point exactly if it never skips**, where all that it
receives is different. -/
theorem Machine.inOrder_iff (h : Machine apply view Skips) (l : List α) : ∀ s, (view s).Kept →
    (view (l.foldl apply s)).received.Nodup →
    ((∀ k, k <+: l → (view (k.foldl apply s)).InOrder) ↔
      ∀ k a r, l = k ++ a :: r → ¬ Skips (k.foldl apply s) a) := by
  induction l with
  | nil =>
    intro s hs _
    constructor
    · intro _ k a r heq
      exact absurd heq.symm (List.append_ne_nil_of_right_ne_nil k (List.cons_ne_nil a r))
    · intro _ k hk
      rw [List.prefix_nil.mp hk]
      exact hs.inOrder
  | cons a l ih =>
    intro s hs hd
    have hsub := (h.received_run (a :: l) s).sublist
    by_cases hskip : Skips s a
    · have hnow := (h.received_run l (apply s a)).sublist
      constructor
      · intro hin
        have hone := hin [a] (List.prefix_append [a] l)
        exact absurd hone ((h.skips hskip).not_inOrder hs (hd.sublist hsub))
      · intro hnone
        exact absurd hskip (hnone [] a l rfl)
    · have hs' : (view (apply s a)).Kept := hs.moves (h.moves hskip)
      have hrest := ih (apply s a) hs' hd
      constructor
      · intro hin k b r heq
        cases k with
        | nil =>
          obtain ⟨rfl, -⟩ := List.cons.inj heq
          exact hskip
        | cons c k =>
          obtain ⟨rfl, heq'⟩ := List.cons.inj heq
          refine hrest.mp ?_ k b r heq'
          intro m hm
          exact hin (a :: m) (List.cons_prefix_cons.mpr ⟨rfl, hm⟩)
      · intro hnone k hk
        cases k with
        | nil => exact hs.inOrder
        | cons c k =>
          obtain ⟨rfl, hk'⟩ := List.cons_prefix_cons.mp hk
          refine hrest.mpr ?_ k hk'
          intro m b r heq
          exact hnone (c :: m) b r (by rw [heq, List.cons_append])

end Runs

end Pipe
