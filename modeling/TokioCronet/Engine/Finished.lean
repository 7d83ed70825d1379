import Mathlib.Data.List.Nodup
import TokioCronet.Types

/-!
# The registry of unfinished requests

`EngineFinishedContext`: the annotation handles of every request that was begun
and has not reported yet, and the number of such requests. Each function below is
one lock section of the source, so that callers can interleave between them.
-/

namespace TokioCronet.Engine

/-- An annotation handle (the address of its token) and the user's string; the
tracking annotation of a request carries none. -/
abbrev Annotation := Nat × Option String

/-- `EngineFinishedContext`. -/
structure FinishedContext where
  /-- `annotations`, keyed by handle. -/
  annotations : List Annotation := []
  /-- `pending`. -/
  pending : Nat := 0
  /-- How often `notify_waiters` was called on `idle`. -/
  epoch : Nat := 0
  /-- What `events` has broadcast: the user annotations of each finished request. -/
  events : List (List (Nat × String)) := []
  deriving DecidableEq

/-- What `copy_finished_info` copies of the annotations: in the order of the native array if it
lists as many of their handles as there are, else as they come. -/
def copyAnnotations (pointers : List Nat) (annotations : List (Nat × String)) :
    List (Nat × String) :=
  let copied := pointers.filterMap fun p => annotations.find? fun a => a.1 = p
  if copied.length ≠ annotations.length then annotations else copied

namespace FinishedContext

/-- `HashMap::insert`. -/
def insert (registered : List Annotation) (a : Annotation) : List Annotation :=
  a :: registered.filter (fun b => b.1 ≠ a.1)

/-- `HashMap::remove`. -/
def remove (registered : List Annotation) (pointer : Nat) : List Annotation :=
  registered.filter (fun b => b.1 ≠ pointer)

/-- The first section of `begin_request`: every handle is registered. -/
def register (s : FinishedContext) (annotations : List Annotation) : FinishedContext :=
  { s with annotations := annotations.foldl insert s.annotations }

/-- The second section of `begin_request`. -/
def countOne (s : FinishedContext) : FinishedContext :=
  { s with pending := s.pending + 1 }

/-- The first section of `abort_request`. -/
def unregister (s : FinishedContext) (annotations : List Annotation) : FinishedContext :=
  { s with annotations := annotations.foldl (fun r a => remove r a.1) s.annotations }

/-- What `on_finished` collects for one native handle. -/
def takeOne (acc : List Annotation × List (Nat × String) × Bool) (pointer : Nat) :
    List Annotation × List (Nat × String) × Bool :=
  match acc.1.find? (fun b => b.1 = pointer) with
  | none => acc
  | some (_, some value) => (remove acc.1 pointer, acc.2.1 ++ [(pointer, value)], acc.2.2)
  | some (_, none) => (remove acc.1 pointer, acc.2.1, true)

/-- The registry section of `on_finished`: the handles the native side lists are
removed; the strings found and whether a tracking handle was among them. -/
def take (s : FinishedContext) (pointers : List Nat) :
    FinishedContext × List (Nat × String) × Bool :=
  let r := pointers.foldl takeOne (s.annotations, [], false)
  ({ s with annotations := r.1 }, r.2)

/-- `events.send`. -/
def send (s : FinishedContext) (values : List (Nat × String)) : FinishedContext :=
  { s with events := s.events ++ [values] }

/-- `finish_one`: the count never goes below zero, and reaching zero wakes every
waiter. -/
def finishOne (s : FinishedContext) : FinishedContext :=
  if s.pending = 0 then s
  else if s.pending = 1 then { s with pending := 0, epoch := s.epoch + 1 }
  else { s with pending := s.pending - 1 }

@[simp] theorem register_pending (s : FinishedContext) (as : List Annotation) :
    (s.register as).pending = s.pending := rfl

@[simp] theorem countOne_pending (s : FinishedContext) :
    s.countOne.pending = s.pending + 1 := rfl

@[simp] theorem unregister_pending (s : FinishedContext) (as : List Annotation) :
    (s.unregister as).pending = s.pending := rfl

theorem take_pending {s s' : FinishedContext} {ps : List Nat}
    {r : List (Nat × String) × Bool} (h : s.take ps = (s', r)) : s'.pending = s.pending := by
  cases h
  rfl

/-- The handles that are collected stand in the native array, in this order and each once. -/
theorem takes_handles (pointers : List Nat) (acc : List Annotation) (vs : List (Nat × String))
    (b : Bool) :
    ∃ values, (pointers.foldl takeOne (acc, vs, b)).2.1 = vs ++ values ∧
      (values.map Prod.fst).Sublist pointers ∧ (values.map Prod.fst).Nodup ∧
      ∀ a ∈ values, ∃ r ∈ acc, r.1 = a.1 := by
  induction pointers generalizing acc vs b with
  | nil => exact ⟨[], (List.append_nil vs).symm, List.Sublist.slnil, List.nodup_nil, nofun⟩
  | cons p ps ih =>
    have hkept : ∀ {values : List (Nat × String)}, (∀ a ∈ values, ∃ r ∈ remove acc p, r.1 = a.1) →
        ∀ a ∈ values, ∃ r ∈ acc, r.1 = a.1 := by
      intro values hmem a ha
      obtain ⟨r, hr, heq⟩ := hmem a ha
      exact ⟨r, (List.mem_filter.mp hr).1, heq⟩
    rw [List.foldl_cons]
    cases hfind : acc.find? (fun b => b.1 = p) with
    | none =>
      rw [show takeOne (acc, vs, b) p = (acc, vs, b) by simp only [takeOne, hfind]]
      obtain ⟨values, hvalues, hsub, hnodup, hmem⟩ := ih acc vs b
      exact ⟨values, hvalues, hsub.cons p, hnodup, hmem⟩
    | some found =>
      obtain ⟨k, value⟩ := found
      cases value with
      | none =>
        rw [show takeOne (acc, vs, b) p = (remove acc p, vs, true) by simp only [takeOne, hfind]]
        obtain ⟨values, hvalues, hsub, hnodup, hmem⟩ := ih (remove acc p) vs true
        exact ⟨values, hvalues, hsub.cons p, hnodup, hkept hmem⟩
      | some value =>
        rw [show takeOne (acc, vs, b) p = (remove acc p, vs ++ [(p, value)], b) by
          simp only [takeOne, hfind]]
        obtain ⟨values, hvalues, hsub, hnodup, hmem⟩ := ih (remove acc p) (vs ++ [(p, value)]) b
        refine ⟨(p, value) :: values, ?_, hsub.cons_cons p, ?_, ?_⟩
        · rw [hvalues, List.append_assoc, List.singleton_append]
        · refine List.nodup_cons.mpr ⟨fun hp => ?_, hnodup⟩
          -- the handle has been taken out of the map
          obtain ⟨a, ha, heq⟩ := List.mem_map.mp hp
          obtain ⟨r, hr, hkey⟩ := hmem a ha
          have hne : r.1 ≠ p := of_decide_eq_true (List.mem_filter.mp hr).2
          exact hne (hkey.trans heq)
        · refine List.forall_mem_cons.mpr ⟨⟨(k, some value), ?_, ?_⟩, hkept hmem⟩
          · exact List.mem_of_find?_eq_some hfind
          · simpa using List.find?_some hfind

/-- Annotations whose handles the array lists in their order are copied as they are. -/
theorem copyAnnotations_sublist {pointers : List Nat} {annotations : List (Nat × String)}
    (hsub : (annotations.map Prod.fst).Sublist pointers)
    (hnodup : (annotations.map Prod.fst).Nodup) :
    copyAnnotations pointers annotations = annotations := by
  have hself : (annotations.map Prod.fst).filterMap
      (fun p => annotations.find? fun a => a.1 = p) = annotations := by
    rw [List.filterMap_map]
    refine (List.filterMap_congr fun a ha => ?_).trans List.filterMap_some
    cases hfind : annotations.find? (fun b => b.1 = a.1) with
    | none => exact absurd (List.find?_eq_none.mp hfind a ha) (by simp)
    | some found =>
      have hfound : found.1 = a.1 := by simpa using List.find?_some hfind
      have hsame := List.inj_on_of_nodup_map hnodup (List.mem_of_find?_eq_some hfind) ha hfound
      exact hfind.trans (congrArg some hsame)
  have hcopied := hsub.filterMap fun p => annotations.find? fun a => a.1 = p
  rw [hself] at hcopied
  simp only [copyAnnotations]
  split_ifs with hlength
  · rfl
  · exact (hcopied.eq_of_length (Decidable.not_not.mp hlength).symm).symm

/-- **The second lookup finds what the first has found**, in the same order. -/
theorem copyAnnotations_take {s s' : FinishedContext} {pointers : List Nat}
    {values : List (Nat × String)} {b : Bool} (h : s.take pointers = (s', values, b)) :
    copyAnnotations pointers values = values := by
  obtain ⟨taken, htaken, hsub, hnodup, -⟩ := takes_handles pointers s.annotations [] false
  have hvalues : values = taken := by
    rw [List.nil_append] at htaken
    rw [← htaken]
    exact (congrArg (fun r => r.2.1) h).symm
  rw [hvalues]
  exact copyAnnotations_sublist hsub hnodup

@[simp] theorem send_pending (s : FinishedContext) (vs : List (Nat × String)) :
    (s.send vs).pending = s.pending := rfl

theorem finishOne_pending (s : FinishedContext) : s.finishOne.pending = s.pending - 1 := by
  unfold finishOne
  split
  · omega
  · split
    · simp only; omega
    · rfl

end FinishedContext

end TokioCronet.Engine
