import Mathlib.Data.List.Basic

/-!
# Traces

Orders between kinds of events in a list of what has happened so far. A trace only
grows at its end, so each comes with the rules that extend it.
-/

namespace Trace

variable {ε : Type*} {P Q : ε → Prop} {tr : List ε} {e : ε}

/-- Once a `P` has happened no `Q` happens any more. -/
def Bars (P Q : ε → Prop) (tr : List ε) : Prop :=
  tr.Pairwise (fun a b => P a → ¬ Q b)

/-- Every `Q` has a `P` before it. -/
def Needs (Q P : ε → Prop) (tr : List ε) : Prop :=
  ∀ l b r, tr = l ++ b :: r → Q b → ∃ a ∈ l, P a

/-- Every event is justified by what came before it. -/
def Justified (J : List ε → ε → Prop) (tr : List ε) : Prop :=
  ∀ l e r, tr = l ++ e :: r → J l e

/-- Some `Q` has happened after some `P`. -/
def Follows (P Q : ε → Prop) (tr : List ε) : Prop :=
  ∃ l a r, tr = l ++ a :: r ∧ P a ∧ ∃ b ∈ r, Q b

@[simp] theorem bars_nil : Bars P Q [] := List.Pairwise.nil

@[simp] theorem needs_nil : Needs Q P [] := by
  intro l b r h
  simp at h

theorem Bars.append (h : Bars P Q tr) (he : Q e → ∀ a ∈ tr, ¬ P a) : Bars P Q (tr ++ [e]) := by
  refine List.pairwise_append.mpr ⟨h, List.pairwise_singleton _ _, ?_⟩
  intro a ha b hb hp hq
  rw [List.mem_singleton] at hb
  subst hb
  exact he hq a ha hp

theorem Bars.quiet {l : List ε} (h : Bars P Q tr) (hl : ∀ e ∈ l, ¬ Q e) : Bars P Q (tr ++ l) :=
  List.pairwise_append.mpr ⟨h, List.pairwise_of_forall_mem_list fun _ _ b hb _ => hl b hb,
    fun _ _ b hb _ => hl b hb⟩

/-- Where an element of a list stands that has grown at its end. -/
theorem split_append {l r : List ε} {a : ε} (h : tr ++ [e] = l ++ a :: r) :
    (r = [] ∧ tr = l ∧ e = a) ∨ ∃ r', r = r' ++ [e] ∧ tr = l ++ a :: r' := by
  rcases List.eq_nil_or_concat r with rfl | ⟨r', b, rfl⟩
  · obtain ⟨hl, ha⟩ := List.append_inj' h rfl
    exact .inl ⟨rfl, hl, List.singleton_inj.mp ha⟩
  · have heq : tr ++ [e] = (l ++ a :: r') ++ [b] := by simpa using h
    obtain ⟨hl, hb⟩ := List.append_inj' heq rfl
    refine .inr ⟨r', ?_, hl⟩
    rw [List.singleton_inj.mp hb, List.concat_eq_append]

theorem justified_nil {J : List ε → ε → Prop} : Justified J [] := by
  intro l b r h
  simp at h

theorem Justified.append {J : List ε → ε → Prop} (h : Justified J tr) (he : J tr e) :
    Justified J (tr ++ [e]) := by
  intro l b r heq
  rcases split_append heq with ⟨-, rfl, rfl⟩ | ⟨r', -, htr⟩
  · exact he
  · -- the new event is not the one asked about
    exact h l b r' htr

/-- Several events at once, each justified by the ones before it. -/
theorem Justified.appends {J : List ε → ε → Prop} {more : List ε} (h : Justified J tr)
    (hmore : ∀ l e r, more = l ++ e :: r → J (tr ++ l) e) : Justified J (tr ++ more) := by
  induction more generalizing tr with
  | nil =>
    rw [List.append_nil]
    exact h
  | cons e more ih =>
    rw [List.append_cons]
    refine ih (h.append ?_) ?_
    · have he := hmore [] e more rfl
      rw [List.append_nil] at he
      exact he
    · intro l b r heq
      rw [List.append_assoc]
      exact hmore (e :: l) b r (by rw [heq, List.cons_append])

theorem Needs.append (h : Needs Q P tr) (he : Q e → ∃ a ∈ tr, P a) :
    Needs Q P (tr ++ [e]) :=
  Justified.append (J := fun l b => Q b → ∃ a ∈ l, P a) h he

theorem Follows.append (h : Follows P Q tr) (l : List ε) : Follows P Q (tr ++ l) := by
  obtain ⟨l', a, r, rfl, hp, b, hb, hq⟩ := h
  exact ⟨l', a, r ++ l, by simp, hp, b, List.mem_append_left l hb, hq⟩

theorem follows_of_mem {a : ε} (ha : a ∈ tr) (hp : P a) (hq : Q e) :
    Follows P Q (tr ++ [e]) := by
  obtain ⟨l, r, rfl⟩ := List.append_of_mem ha
  exact ⟨l, a, r ++ [e], by simp, hp, e, List.mem_append_right r (List.mem_singleton_self e), hq⟩

/-- What happens at most once is one event. -/
theorem eq_of_countP_le_one {p : ε → Bool} {a b : ε} (h : tr.countP p ≤ 1) (ha : a ∈ tr)
    (hb : b ∈ tr) (hpa : p a = true) (hpb : p b = true) : a = b := by
  obtain ⟨l, r, rfl⟩ := List.append_of_mem ha
  rw [List.countP_append, List.countP_cons_of_pos hpa] at h
  rcases List.mem_append.mp hb with hb | hb
  · have hpos : 0 < l.countP p := List.countP_pos_iff.mpr ⟨b, hb, hpb⟩
    omega
  · rcases List.mem_cons.mp hb with rfl | hb
    · rfl
    · have hpos : 0 < r.countP p := List.countP_pos_iff.mpr ⟨b, hb, hpb⟩
      omega

end Trace
