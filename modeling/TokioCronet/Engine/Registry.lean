import Mathlib.Data.List.Find
import Mathlib.Data.List.Nodup
import Mathlib.Data.List.Perm.Basic
import Mathlib.Tactic.SplitIfs
import TokioCronet.Engine.Finished

/-!
# The registry over whole histories

Requests are known to `EngineFinishedContext` by nothing but the addresses of their
tokens, all in one map, and one count. Here the calls of any number of requests are
followed next to a history that names the requests, and the map and the count are those
of the requests that the history says are unfinished.
-/

namespace TokioCronet.Engine

variable {ι : Type}

/-- What a request is annotated with: its tracking annotation, and those of the user. -/
structure RequestAnnotations where
  tracking : Nat
  users : List (Nat × String)

/-- `engine_annotations` -/
def RequestAnnotations.engineAnnotations (r : RequestAnnotations) : List Annotation :=
  (r.tracking, none) :: r.users.map fun a => (a.1, some a.2)

/-- The handles of a request. -/
def RequestAnnotations.handles (r : RequestAnnotations) : List Nat :=
  r.engineAnnotations.map Prod.fst

/-- The user annotations of a request in the order in which an array lists them. -/
def RequestAnnotations.valuesIn (r : RequestAnnotations) (pointers : List Nat) :
    List (Nat × String) :=
  pointers.filterMap fun p => r.users.find? fun a => a.1 = p

/-! ## Calls -/

namespace FinishedContext

/-- `begin_request` -/
def beginRequest (s : FinishedContext) (annotations : List Annotation) : FinishedContext :=
  (s.register annotations).countOne

/-- `abort_request` -/
def abortRequest (s : FinishedContext) (annotations : List Annotation) : FinishedContext :=
  (s.unregister annotations).finishOne

/-- `on_finished` -/
def onFinished (s : FinishedContext) (pointers : List Nat) : FinishedContext :=
  match s.take pointers with
  | (s', values, true) => (s'.send (copyAnnotations pointers values)).finishOne
  | (s', _, false) => s'

end FinishedContext

/-- A call on `EngineFinishedContext`; `on_finished` gets the array that the native side
lists. -/
inductive Call (ι : Type) where
  | beginRequest (id : ι)
  | abortRequest (id : ι)
  | onFinished (pointers : List Nat)

/-- One call. -/
def FinishedContext.call (requests : ι → RequestAnnotations) (s : FinishedContext) :
    Call ι → FinishedContext
  | .beginRequest id => s.beginRequest (requests id).engineAnnotations
  | .abortRequest id => s.abortRequest (requests id).engineAnnotations
  | .onFinished pointers => s.onFinished pointers

/-- The registry after a sequence of calls. -/
def after (requests : ι → RequestAnnotations) (calls : List (Call ι)) : FinishedContext :=
  calls.foldl (FinishedContext.call requests) {}

/-! ## Histories -/

/-- The requests that were begun, those of them that were neither aborted nor finished,
and those that were finished, each with what was broadcast for it. -/
structure History (ι : Type) where
  begun : List ι := []
  live : List ι := []
  broadcast : List (ι × List (Nat × String)) := []

/-- A request is begun once, with handles that no unfinished request has. It is aborted
while it is unfinished. The array of a finished request lists each of its handles once and
none of another unfinished request; whatever else an array lists is not known. -/
inductive History.Step [DecidableEq ι] (requests : ι → RequestAnnotations) (h : History ι) :
    Call ι → History ι → Prop
  | begins {id : ι} : id ∉ h.begun → (requests id).handles.Nodup →
      (∀ j ∈ h.live, (requests id).handles.Disjoint (requests j).handles) →
      h.Step requests (.beginRequest id)
        { h with begun := id :: h.begun, live := id :: h.live }
  | aborts {id : ι} : id ∈ h.live →
      h.Step requests (.abortRequest id) { h with live := h.live.erase id }
  | finishes {id : ι} {pointers : List Nat} : id ∈ h.live →
      (∀ p ∈ (requests id).handles, pointers.count p = 1) →
      (∀ j ∈ h.live, j ≠ id → (requests j).handles.Disjoint pointers) →
      h.Step requests (.onFinished pointers)
        { h with live := h.live.erase id,
                 broadcast := h.broadcast ++ [(id, (requests id).valuesIn pointers)] }
  | ignored {pointers : List Nat} :
      (∀ j ∈ h.live, (requests j).handles.Disjoint pointers) →
      h.Step requests (.onFinished pointers) h

/-- The history of a sequence of calls. -/
inductive History.Of [DecidableEq ι] (requests : ι → RequestAnnotations) :
    List (Call ι) → History ι → Prop
  | nil : History.Of requests [] {}
  | snoc {calls : List (Call ι)} {h h' : History ι} {c : Call ι} :
      History.Of requests calls h → h.Step requests c h' →
      History.Of requests (calls ++ [c]) h'

/-! ## The map -/

namespace FinishedContext

variable {acc : List Annotation} {pointers : List Nat}

/-- The keys of the map. -/
def keys (registered : List Annotation) : List Nat := registered.map Prod.fst

theorem insert_new {a : Annotation} (h : a.1 ∉ keys acc) : insert acc a = a :: acc := by
  rw [insert, List.filter_eq_self.mpr]
  intro b hb
  have hne : b.1 ≠ a.1 := fun heq => h (heq ▸ List.mem_map_of_mem hb)
  simpa using hne

/-- New handles are added to the map. -/
theorem inserts_perm {as : List Annotation} (hnew : (keys as).Disjoint (keys acc))
    (hnodup : (keys as).Nodup) : (as.foldl insert acc).Perm (as ++ acc) := by
  induction as generalizing acc with
  | nil => exact List.Perm.refl acc
  | cons a as ih =>
    obtain ⟨ha, hnodup⟩ := List.nodup_cons.mp hnodup
    have hfresh : a.1 ∉ keys acc := fun hmem => hnew List.mem_cons_self hmem
    rw [List.foldl_cons, insert_new hfresh]
    refine (ih ?_ hnodup).trans List.perm_middle
    intro p hp hq
    rcases List.mem_cons.mp hq with rfl | hq
    · exact ha hp
    · exact hnew (List.mem_cons_of_mem _ hp) hq

theorem removes_eq {as : List Annotation} :
    as.foldl (fun r a => remove r a.1) acc = acc.filter (fun b => b.1 ∉ keys as) := by
  induction as generalizing acc with
  | nil => exact (List.filter_eq_self.mpr fun _ _ => rfl).symm
  | cons a as ih =>
    rw [List.foldl_cons, ih, remove, List.filter_filter]
    refine List.filter_congr fun b _ => ?_
    rw [Bool.eq_iff_iff, Bool.and_eq_true, decide_eq_true_iff, decide_eq_true_iff,
      decide_eq_true_iff, keys, keys, List.map_cons, List.mem_cons, not_or, and_comm]

/-- What is removed of a map in two parts is the first of them. -/
theorem removed_perm {xs ys : List Annotation} (h : acc.Perm (xs ++ ys))
    (hxs : ∀ p ∈ keys xs, p ∈ pointers) (hys : (keys ys).Disjoint pointers) :
    (acc.filter (fun b => b.1 ∉ pointers)).Perm ys := by
  refine (h.filter _).trans ?_
  rw [List.filter_append, List.filter_eq_nil_iff.mpr, List.filter_eq_self.mpr, List.nil_append]
  · intro b hb
    simpa using fun hmem => hys (List.mem_map_of_mem hb) hmem
  · intro b hb
    simpa using hxs b.1 (List.mem_map_of_mem hb)

/-- What the map says of a handle. -/
def valueOf (acc : List Annotation) (p : Nat) : Option (Nat × String) :=
  match acc.find? (fun b => b.1 = p) with
  | some (_, some value) => some (p, value)
  | _ => none

/-- The handle is that of a tracking annotation. -/
def tracked (acc : List Annotation) (p : Nat) : Bool :=
  match acc.find? (fun b => b.1 = p) with
  | some (_, none) => true
  | _ => false

theorem find_remove {p q : Nat} (h : q ≠ p) :
    (remove acc p).find? (fun b => b.1 = q) = acc.find? (fun b => b.1 = q) := by
  rw [remove, List.find?_filter]
  refine List.find?_congr fun b _ => ?_
  by_cases hb : b.1 = q
  · simp [hb, h]
  · simp [hb]

theorem valueOf_remove {p q : Nat} (h : q ≠ p) : valueOf (remove acc p) q = valueOf acc q := by
  rw [valueOf, valueOf, find_remove h]

theorem tracked_remove {p q : Nat} (h : q ≠ p) : tracked (remove acc p) q = tracked acc q := by
  rw [tracked, tracked, find_remove h]

theorem mem_keys_of_find {p k : Nat} {v : Option String}
    (h : acc.find? (fun b => b.1 = p) = some (k, v)) : k = p ∧ p ∈ keys acc := by
  have hk : k = p := by simpa using List.find?_some h
  refine ⟨hk, ?_⟩
  rw [← hk]
  exact List.mem_map_of_mem (List.mem_of_find?_eq_some h)

/-- A handle that the map does not know is passed over. -/
theorem takeOne_none {p : Nat} {vs : List (Nat × String)} {b : Bool}
    (h : acc.find? (fun b => b.1 = p) = none) : takeOne (acc, vs, b) p = (acc, vs, b) := by
  simp only [takeOne, h]

/-- A handle that the map knows is taken out of it. -/
theorem takeOne_some {p k : Nat} {v : Option String} {vs : List (Nat × String)} {b : Bool}
    (h : acc.find? (fun b => b.1 = p) = some (k, v)) :
    takeOne (acc, vs, b) p = (remove acc p, vs ++ (valueOf acc p).toList, b || tracked acc p) := by
  cases v <;> simp [takeOne, valueOf, tracked, h]

/-- **What `on_finished` collects**, of handles that are listed once. -/
theorem takes_eq {vs : List (Nat × String)} {b : Bool}
    (honce : ∀ p ∈ keys acc, pointers.count p ≤ 1) :
    pointers.foldl takeOne (acc, vs, b) =
      (acc.filter (fun a => a.1 ∉ pointers), vs ++ pointers.filterMap (valueOf acc),
        b || pointers.any (tracked acc)) := by
  induction pointers generalizing acc vs b with
  | nil => simp
  | cons p ps ih =>
    have hps : ∀ q ∈ keys acc, ps.count q ≤ 1 := fun q hq =>
      le_trans List.count_le_count_cons (honce q hq)
    rw [List.foldl_cons]
    cases hfind : acc.find? (fun b => b.1 = p) with
    | none =>
      have hnot : ∀ a ∈ acc, a.1 ≠ p := by simpa using List.find?_eq_none.mp hfind
      have hvalue : valueOf acc p = none := by simp [valueOf, hfind]
      have htracked : tracked acc p = false := by simp [tracked, hfind]
      rw [takeOne_none hfind, ih hps, List.filterMap_cons_none hvalue, List.any_cons, htracked,
        Bool.false_or]
      congr 1
      refine List.filter_congr fun a ha => ?_
      simp [hnot a ha]
    | some found =>
      obtain ⟨k, v⟩ := found
      obtain ⟨rfl, hmem⟩ := mem_keys_of_find hfind
      have hnot : k ∉ ps := by
        have hcount := honce k hmem
        rw [List.count_cons_self] at hcount
        exact List.count_eq_zero.mp (by omega)
      have hne : ∀ q ∈ ps, q ≠ k := fun q hq heq => hnot (heq ▸ hq)
      have hps' : ∀ q ∈ keys (remove acc k), ps.count q ≤ 1 := by
        intro q hq
        obtain ⟨a, ha, rfl⟩ := List.mem_map.mp hq
        exact hps _ (List.mem_map_of_mem (List.mem_filter.mp ha).1)
      have hvalues : ps.filterMap (valueOf (remove acc k)) = ps.filterMap (valueOf acc) :=
        List.filterMap_congr fun q hq => valueOf_remove (hne q hq)
      have htracked : ps.any (tracked (remove acc k)) = ps.any (tracked acc) := by
        rw [Bool.eq_iff_iff, List.any_eq_true, List.any_eq_true]
        exact exists_congr fun q => and_congr_right fun hq => by rw [tracked_remove (hne q hq)]
      rw [takeOne_some hfind, ih hps', hvalues, htracked, List.any_cons, Bool.or_assoc,
        List.append_assoc, remove, List.filter_filter]
      congr 1
      · refine List.filter_congr fun a _ => ?_
        by_cases ha : a.1 = k <;> simp [ha]
      · cases hv : valueOf acc k with
        | none => rw [List.filterMap_cons_none hv, Option.toList_none, List.nil_append]
        | some a => rw [List.filterMap_cons_some hv, Option.toList_some, List.singleton_append]

theorem find_of_mem {p : Nat} {v : Option String} (hnodup : (keys acc).Nodup)
    (hmem : (p, v) ∈ acc) : acc.find? (fun b => b.1 = p) = some (p, v) := by
  cases hfind : acc.find? (fun b => b.1 = p) with
  | none => simpa using List.find?_eq_none.mp hfind _ hmem
  | some found =>
    have hfound : found.1 = p := by simpa using List.find?_some hfind
    rw [List.inj_on_of_nodup_map hnodup (List.mem_of_find?_eq_some hfind) hmem hfound]

theorem find_of_not_mem {p : Nat} (h : p ∉ keys acc) : acc.find? (fun b => b.1 = p) = none := by
  refine List.find?_eq_none.mpr fun a ha => ?_
  have hne : a.1 ≠ p := fun heq => h (heq ▸ List.mem_map_of_mem ha)
  simpa using hne

@[simp] theorem finishOne_annotations (s : FinishedContext) :
    s.finishOne.annotations = s.annotations := by
  unfold finishOne
  split_ifs <;> rfl

@[simp] theorem finishOne_events (s : FinishedContext) : s.finishOne.events = s.events := by
  unfold finishOne
  split_ifs <;> rfl

end FinishedContext

/-! ## The registry and the history -/

open FinishedContext

variable {requests : ι → RequestAnnotations} {s : FinishedContext} {h h' : History ι} {c : Call ι}
  {id : ι} {pointers : List Nat}

/-- The registry is that of the unfinished requests. -/
structure Matches (requests : ι → RequestAnnotations) (s : FinishedContext) (h : History ι) :
    Prop where
  /-- The count is their number. -/
  pending : s.pending = h.live.length
  /-- The map has their annotations. -/
  registry : s.annotations.Perm (h.live.flatMap fun id => (requests id).engineAnnotations)
  /-- No handle is twice in it. -/
  keys : (FinishedContext.keys s.annotations).Nodup
  /-- What was broadcast is that of the history. -/
  events : s.events = h.broadcast.map Prod.snd
  /-- A request ends once. -/
  known : (h.live ++ h.broadcast.map Prod.fst).Nodup
  /-- What has ended was begun. -/
  begun : ∀ id ∈ h.live ++ h.broadcast.map Prod.fst, id ∈ h.begun

theorem Matches.keys_iff (hm : Matches requests s h) {p : Nat} :
    p ∈ FinishedContext.keys s.annotations ↔ ∃ id ∈ h.live, p ∈ (requests id).handles := by
  rw [FinishedContext.keys, (hm.registry.map Prod.fst).mem_iff, List.map_flatMap, List.mem_flatMap]
  rfl

theorem matches_init : Matches requests {} {} where
  pending := rfl
  registry := List.Perm.refl []
  keys := List.nodup_nil
  events := rfl
  known := List.nodup_nil
  begun _ hid := absurd hid List.not_mem_nil

theorem matches_begins (hm : Matches requests s h) (hnew : id ∉ h.begun)
    (hnodup : (requests id).handles.Nodup)
    (hdisjoint : ∀ j ∈ h.live, (requests id).handles.Disjoint (requests j).handles) :
    Matches requests (s.beginRequest (requests id).engineAnnotations)
      { h with begun := id :: h.begun, live := id :: h.live } := by
  have hfresh : (FinishedContext.keys (requests id).engineAnnotations).Disjoint
      (FinishedContext.keys s.annotations) := by
    intro p hp hq
    obtain ⟨j, hj, hpj⟩ := hm.keys_iff.mp hq
    exact hdisjoint j hj hp hpj
  have hperm : (s.beginRequest (requests id).engineAnnotations).annotations.Perm
      ((requests id).engineAnnotations ++ s.annotations) := inserts_perm hfresh hnodup
  refine ⟨?_, ?_, ?_, hm.events, ?_, ?_⟩
  · exact congrArg (· + 1) hm.pending
  · exact hperm.trans (hm.registry.append_left _)
  · refine (hperm.map Prod.fst).nodup_iff.mpr ?_
    rw [List.map_append]
    exact List.nodup_append'.mpr ⟨hnodup, hm.keys, hfresh⟩
  · exact List.nodup_cons.mpr ⟨fun hmem => hnew (hm.begun id hmem), hm.known⟩
  · intro j hj
    rcases List.mem_cons.mp hj with rfl | hj
    · exact List.mem_cons_self
    · exact List.mem_cons_of_mem _ (hm.begun j hj)

/-- Handles that no unfinished request has change nothing. -/
theorem onFinished_ignored (hm : Matches requests s h)
    (hnone : ∀ j ∈ h.live, (requests j).handles.Disjoint pointers) :
    s.onFinished pointers = s := by
  have hnot : ∀ p ∈ pointers, p ∉ FinishedContext.keys s.annotations := by
    intro p hp hmem
    obtain ⟨j, hj, hpj⟩ := hm.keys_iff.mp hmem
    exact hnone j hj hpj hp
  have hfold : pointers.foldl takeOne (s.annotations, [], false) = (s.annotations, [], false) := by
    clear hnone
    induction pointers with
    | nil => rfl
    | cons p ps ih =>
      rw [List.foldl_cons, takeOne_none (find_of_not_mem (hnot p List.mem_cons_self))]
      exact ih fun q hq => hnot q (List.mem_cons_of_mem _ hq)
  simp only [FinishedContext.onFinished, FinishedContext.take, hfold]

variable [DecidableEq ι]

/-- One of the unfinished requests, and the others. -/
theorem Matches.split (hm : Matches requests s h) (hid : id ∈ h.live) :
    s.annotations.Perm ((requests id).engineAnnotations ++
      (h.live.erase id).flatMap fun id => (requests id).engineAnnotations) :=
  hm.registry.trans ((List.perm_cons_erase hid).flatMap_right _)

theorem handles_nodup (hm : Matches requests s h) (hid : id ∈ h.live) :
    (requests id).handles.Nodup := by
  have hnodup := ((hm.split hid).map Prod.fst).nodup_iff.mp hm.keys
  rw [List.map_append] at hnodup
  exact (List.nodup_append.mp hnodup).1

/-- The handles of one unfinished request are not among those of the others. -/
theorem handles_disjoint (hm : Matches requests s h) (hid : id ∈ h.live) :
    ((FinishedContext.keys ((h.live.erase id).flatMap fun id =>
      (requests id).engineAnnotations)).Disjoint (requests id).handles) := by
  have hnodup := ((hm.split hid).map Prod.fst).nodup_iff.mp hm.keys
  rw [List.map_append] at hnodup
  exact fun p hp hq => List.disjoint_of_nodup_append hnodup hq hp

/-- An unfinished request is no longer there once its handles are gone. -/
theorem Matches.removed (hm : Matches requests s h) (hid : id ∈ h.live)
    (hown : ∀ p ∈ (requests id).handles, p ∈ pointers)
    (hother : ∀ j ∈ h.live, j ≠ id → (requests j).handles.Disjoint pointers) :
    (s.annotations.filter fun b => b.1 ∉ pointers).Perm
      ((h.live.erase id).flatMap fun id => (requests id).engineAnnotations) := by
  refine removed_perm (hm.split hid) hown ?_
  intro p hp hq
  rw [FinishedContext.keys, List.map_flatMap, List.mem_flatMap] at hp
  obtain ⟨j, hj, hpj⟩ := hp
  have hlive : h.live.Nodup := (List.nodup_append.mp hm.known).1
  obtain ⟨hne, hmem⟩ := (List.Nodup.mem_erase_iff hlive).mp hj
  exact hother j hmem hne hpj hq

/-- What is left to show once the handles of a request are taken out. -/
theorem matches_ends {s' : FinishedContext} {values : List (ι × List (Nat × String))}
    (hm : Matches requests s h) (hid : id ∈ h.live)
    (hregistry : s'.annotations.Perm
      ((h.live.erase id).flatMap fun id => (requests id).engineAnnotations))
    (hpending : s'.pending = s.pending - 1)
    (hevents : s'.events = s.events ++ values.map Prod.snd)
    (hvalues : values = [] ∨ ∃ v, values = [(id, v)]) :
    Matches requests s' { h with live := h.live.erase id, broadcast := h.broadcast ++ values } := by
  have hlive : h.live.Nodup := (List.nodup_append.mp hm.known).1
  have hmoved : (h.live.erase id ++ (h.broadcast ++ values).map Prod.fst).Subperm
      (h.live ++ h.broadcast.map Prod.fst) := by
    rcases hvalues with rfl | ⟨v, rfl⟩
    · rw [List.append_nil]
      exact ((List.erase_sublist).append_right _).subperm
    · -- the request goes over to those that were finished
      refine List.Perm.subperm ?_
      rw [List.map_append, ← List.append_assoc]
      refine List.perm_append_comm.trans ?_
      exact ((List.perm_cons_erase hid).append_right _).symm
  refine ⟨?_, hregistry, ?_, ?_, ?_, ?_⟩
  · rw [hpending, hm.pending, List.length_erase_of_mem hid]
  · have hnodup := ((hm.split hid).map Prod.fst).nodup_iff.mp hm.keys
    rw [List.map_append] at hnodup
    exact (hregistry.map Prod.fst).nodup_iff.mpr (List.nodup_append.mp hnodup).2.1
  · rw [hevents, hm.events, List.map_append]
  · obtain ⟨l, hperm, hsub⟩ := hmoved
    exact hperm.nodup_iff.mp (hm.known.sublist hsub)
  · exact fun j hj => hm.begun j (hmoved.subset hj)

theorem matches_aborts (hm : Matches requests s h) (hid : id ∈ h.live) :
    Matches requests (s.abortRequest (requests id).engineAnnotations)
      { h with live := h.live.erase id } := by
  suffices hregistry : (s.abortRequest (requests id).engineAnnotations).annotations.Perm
      ((h.live.erase id).flatMap fun id => (requests id).engineAnnotations) by
    have hevents : (s.abortRequest (requests id).engineAnnotations).events =
        s.events ++ ([] : List (ι × List (Nat × String))).map Prod.snd := by
      rw [FinishedContext.abortRequest, finishOne_events]
      exact (List.append_nil _).symm
    have hends := matches_ends hm hid hregistry (finishOne_pending _) hevents (.inl rfl)
    rw [List.append_nil] at hends
    exact hends
  · have hregistry : (s.abortRequest (requests id).engineAnnotations).annotations =
        s.annotations.filter fun b => b.1 ∉ (requests id).handles := by
      rw [FinishedContext.abortRequest, finishOne_annotations]
      exact removes_eq
    rw [hregistry]
    refine hm.removed hid (fun p hp => hp) fun j hj hne p hp hq => ?_
    have hlive : h.live.Nodup := (List.nodup_append.mp hm.known).1
    have hmem : j ∈ h.live.erase id := (List.Nodup.mem_erase_iff hlive).mpr ⟨hne, hj⟩
    refine handles_disjoint hm hid (a := p) ?_ hq
    rw [FinishedContext.keys, List.map_flatMap, List.mem_flatMap]
    exact ⟨j, hmem, hp⟩

/-- What the map says of a handle is what the request it is of says. -/
theorem valueOf_live (hm : Matches requests s h) (hid : id ∈ h.live) {p : Nat}
    (hp : ∀ j ∈ h.live, j ≠ id → p ∉ (requests j).handles) :
    valueOf s.annotations p = (requests id).users.find? fun a => a.1 = p := by
  have hnodup := handles_nodup hm hid
  have hmem : ∀ a ∈ (requests id).engineAnnotations, a ∈ s.annotations := fun a ha =>
    (hm.split hid).mem_iff.mpr (List.mem_append_left _ ha)
  have husers : (requests id).users.map Prod.fst =
      ((requests id).users.map fun a => (a.1, some a.2)).map Prod.fst := by
    rw [List.map_map]
    rfl
  by_cases hp' : p ∈ (requests id).handles
  · rw [RequestAnnotations.handles, RequestAnnotations.engineAnnotations, List.map_cons,
      ← husers] at hnodup
    obtain ⟨htracking, hnodup⟩ := List.nodup_cons.mp hnodup
    rw [RequestAnnotations.handles, RequestAnnotations.engineAnnotations, List.map_cons,
      ← husers] at hp'
    rcases List.mem_cons.mp hp' with rfl | hp'
    · -- the tracking annotation has no value
      have hfind := find_of_mem hm.keys (hmem _ List.mem_cons_self)
      rw [valueOf, hfind]
      refine (List.find?_eq_none.mpr fun a ha => ?_).symm
      have hne : a.1 ≠ (requests id).tracking :=
        fun heq => htracking (heq ▸ List.mem_map_of_mem ha)
      simpa using hne
    · obtain ⟨⟨q, value⟩, ha, rfl⟩ := List.mem_map.mp hp'
      have hfind := find_of_mem hm.keys (hmem (q, some value)
        (List.mem_cons_of_mem _ (List.mem_map_of_mem (f := fun a => (a.1, some a.2)) ha)))
      rw [valueOf, hfind]
      cases huser : (requests id).users.find? fun a => a.1 = q with
      | none => simpa using List.find?_eq_none.mp huser _ ha
      | some found =>
        have hq : found.1 = q := by simpa using List.find?_some huser
        exact congrArg some (List.inj_on_of_nodup_map hnodup ha
          (List.mem_of_find?_eq_some huser) hq.symm)
  · have hnot : p ∉ FinishedContext.keys s.annotations := by
      intro hmem
      obtain ⟨j, hj, hpj⟩ := hm.keys_iff.mp hmem
      by_cases hne : j = id
      · exact hp' (hne ▸ hpj)
      · exact hp j hj hne hpj
    rw [valueOf, find_of_not_mem hnot]
    refine (List.find?_eq_none.mpr fun a ha => ?_).symm
    have hne : a.1 ≠ p := by
      rintro rfl
      refine hp' ?_
      rw [RequestAnnotations.handles, RequestAnnotations.engineAnnotations, List.map_cons, ← husers]
      exact List.mem_cons_of_mem _ (List.mem_map_of_mem ha)
    simpa using hne

/-- **A finished request**: its handles are taken out of the map, and what is broadcast is
what the user annotated it with. -/
theorem matches_finishes (hm : Matches requests s h) (hid : id ∈ h.live)
    (honce : ∀ p ∈ (requests id).handles, pointers.count p = 1)
    (hother : ∀ j ∈ h.live, j ≠ id → (requests j).handles.Disjoint pointers) :
    Matches requests (s.onFinished pointers)
        { h with live := h.live.erase id,
                 broadcast := h.broadcast ++ [(id, (requests id).valuesIn pointers)] } := by
  have hlisted : ∀ p ∈ (requests id).handles, p ∈ pointers := fun p hp =>
    List.count_pos_iff.mp (by rw [honce p hp]; exact Nat.one_pos)
  have hcount : ∀ p ∈ FinishedContext.keys s.annotations, pointers.count p ≤ 1 := by
    intro p hp
    obtain ⟨j, hj, hpj⟩ := hm.keys_iff.mp hp
    by_cases hne : j = id
    · exact (honce p (hne ▸ hpj)).le
    · rw [List.count_eq_zero.mpr (hother j hj hne hpj)]
      exact Nat.zero_le 1
  have hvalues : pointers.filterMap (valueOf s.annotations) = (requests id).valuesIn pointers :=
    List.filterMap_congr fun p hp =>
      valueOf_live hm hid fun j hj hne hpj => hother j hj hne hpj hp
  have htracked : pointers.any (tracked s.annotations) = true := by
    refine List.any_eq_true.mpr ⟨(requests id).tracking, hlisted _ List.mem_cons_self, ?_⟩
    have hmem : ((requests id).tracking, none) ∈ s.annotations :=
      (hm.split hid).mem_iff.mpr (List.mem_append_left _ List.mem_cons_self)
    rw [tracked, find_of_mem hm.keys hmem]
  have htake : s.take pointers =
      ({ s with annotations := s.annotations.filter fun b => b.1 ∉ pointers },
        (requests id).valuesIn pointers, true) := by
    simp only [FinishedContext.take, takes_eq hcount, hvalues, htracked, Bool.or_true,
      List.nil_append]
  have hfinished : s.onFinished pointers =
      (({ s with annotations := s.annotations.filter fun b => b.1 ∉ pointers } :
        FinishedContext).send ((requests id).valuesIn pointers)).finishOne := by
    simp only [FinishedContext.onFinished, htake, FinishedContext.copyAnnotations_take htake]
  rw [hfinished]
  refine matches_ends hm hid ?_ (finishOne_pending _) (finishOne_events _) (.inr ⟨_, rfl⟩)
  rw [finishOne_annotations]
  exact hm.removed hid hlisted hother

theorem matches_step (hm : Matches requests s h) (hstep : h.Step requests c h') :
    Matches requests (s.call requests c) h' := by
  induction hstep with
  | begins hnew hnodup hdisjoint => exact matches_begins hm hnew hnodup hdisjoint
  | aborts hid => exact matches_aborts hm hid
  | finishes hid honce hother => exact matches_finishes hm hid honce hother
  | ignored hnone =>
    rw [FinishedContext.call, onFinished_ignored hm hnone]
    exact hm

theorem matches_of {calls : List (Call ι)} (hh : History.Of requests calls h) :
    Matches requests (after requests calls) h := by
  induction hh with
  | nil => exact matches_init
  | snoc _ hstep ih =>
    rw [after, List.foldl_append]
    exact matches_step ih hstep

/-- **The registry is exact**: the count is the number of the requests that were begun and
neither aborted nor finished, and is above zero whenever it is lowered; the map holds the
annotations of these requests; and what was broadcast is, for each request at most once, the
values of its own annotations. -/
theorem registry_exact {calls : List (Call ι)} (hh : History.Of requests calls h) :
    (after requests calls).pending = h.live.length ∧
    (∀ c h', h.Step requests c h' → h'.live.length < h.live.length →
      (after requests (calls ++ [c])).pending + 1 = (after requests calls).pending) ∧
    (after requests calls).annotations.Perm
      (h.live.flatMap fun id => (requests id).engineAnnotations) ∧
    (after requests calls).events = h.broadcast.map Prod.snd ∧
    (h.broadcast.map Prod.fst).Nodup := by
  have hm := matches_of hh
  refine ⟨hm.pending, ?_, hm.registry, hm.events, (List.nodup_append.mp hm.known).2.1⟩
  intro c h' hstep hlt
  rw [(matches_of (hh.snoc hstep)).pending, hm.pending]
  induction hstep with
  | begins => exact absurd hlt (by simp)
  | aborts hid | finishes hid =>
    have hpos : 0 < h.live.length := List.length_pos_of_mem hid
    rw [List.length_erase_of_mem hid]
    omega
  | ignored => exact absurd hlt (Nat.lt_irrefl _)

/-- Two requests with a user annotation each. -/
def twoRequests (id : Bool) : RequestAnnotations :=
  if id then ⟨10, [(11, "a")]⟩ else ⟨20, [(21, "b")]⟩

/-- Both begin, the first is finished and reported a second time, with a handle that nobody
knows. -/
theorem registry_exact_two :
    let calls : List (Call Bool) := [.beginRequest true, .beginRequest false,
      .onFinished [11, 5, 10], .onFinished [11, 5, 10]]
    (after twoRequests calls).pending = 1 ∧
      (after twoRequests calls).events = [[(11, "a")]] := by
  have h1 : History.Of twoRequests [.beginRequest true] ⟨[true], [true], []⟩ :=
    History.Of.nil.snoc (.begins (by decide) (by decide) fun j hj => absurd hj List.not_mem_nil)
  have h2 : History.Of twoRequests [.beginRequest true, .beginRequest false]
      ⟨[false, true], [false, true], []⟩ := by
    refine h1.snoc (.begins (by decide) (by decide) fun j hj p hp hq => ?_)
    revert j p
    decide
  have h3 : History.Of twoRequests
      [.beginRequest true, .beginRequest false, .onFinished [11, 5, 10]]
      ⟨[false, true], [false], [(true, [(11, "a")])]⟩ := by
    refine h2.snoc (@History.Step.finishes _ _ _ _ true _ (by decide) (by decide)
      fun j hj hne p hp hq => ?_)
    revert j p
    decide
  have ignored : History.Step twoRequests ⟨[false, true], [false], [(true, [(11, "a")])]⟩
      (.onFinished [11, 5, 10]) ⟨[false, true], [false], [(true, [(11, "a")])]⟩ := by
    refine .ignored fun j hj p hp hq => ?_
    revert j p
    decide
  have h4 := h3.snoc ignored
  obtain ⟨hpending, -, -, hevents, -⟩ := registry_exact h4
  exact ⟨hpending, hevents⟩

end TokioCronet.Engine
