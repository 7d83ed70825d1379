import Mathlib.Logic.Function.Basic
import TokioCronet.Lib.Pool
import TokioCronet.Lib.Trace
import TokioCronet.WebSocket.Binding

/-!
# Networks of many engines

The table of `cronet_rs_bind.cc` belongs to the process and knows engines by their
addresses, which the allocator uses again. Any number of engines are created, bound, shut
down and dropped here: a call goes through `with_native`, and each way to the end of an
engine through `NativeEngine::shutdown`, which clears the entry before the address is free.
-/

namespace TokioCronet.Networks

open Pool
open Binding (Process unbindNetworkHandle)

/-! ## The program -/

/-- The once-cell of `EngineInner::shutdown`. -/
inductive Cell where
  | empty
  | initializing
  | full
  deriving DecidableEq

/-- An `EngineInner` and its native engine; one that was not created yet is dead. -/
structure Instance where
  address : Nat := 0
  closing : Bool := false
  /-- The mutex around `native`, and whether there is a `NativeEngine` in it. -/
  lock : Bool := false
  native : Bool := false
  cell : Cell := .empty
  /-- `Cronet_Engine_Destroy` was not called. -/
  alive : Bool := false
  /-- `Drop for EngineInner` has run. -/
  dropped : Bool := false
  /-- Calls in progress, which keep the `EngineInner`. -/
  users : Nat := 0
  deriving DecidableEq

/-- What an observer sees. -/
inductive Event where
  | created (id : Nat) (address : Nat)
  | bound (id : Nat) (handle : Int)
  /-- `bound_network` got the handle. -/
  | read (id : Nat) (handle : Int)
  /-- `with_native` returned `EngineShutdown`. -/
  | refused (id : Nat)
  /-- `shutdown` stored `closing`. -/
  | closed (id : Nat)
  | destroyed (id : Nat)
  deriving DecidableEq

/-- What the threads of a process share. -/
structure Shared where
  engines : Nat → Instance := fun _ => {}
  /-- How many were created. -/
  count : Nat := 0
  process : Process := {}
  trace : List Event := []

/-- What is called on the native engine. -/
inductive Op where
  | bindToNetwork (handle : Int)
  | boundNetwork
  deriving DecidableEq

/-- A call on an engine and where it stands. -/
inductive Thread where
  | app
  -- `with_native`
  | load (id : Nat) (op : Op)
  | lock (id : Nat) (op : Op)
  | check (id : Nat) (op : Op)
  | asRef (id : Nat) (op : Op)
  | function (id : Nat) (op : Op)
  | unlock (id : Nat)
  -- `EngineInner::shutdown`
  | closeLock (id : Nat)
  | closeStore (id : Nat)
  | closeUnlock (id : Nat)
  | cell (id : Nat)
  | wait (id : Nat)
  | takeLock (id : Nat)
  | take (id : Nat)
  | takeUnlock (id : Nat) (native : Bool)
  | join (id : Nat)
  -- `NativeEngine::shutdown`
  | clear (id : Nat)
  | stop (id : Nat)
  | destroy (id : Nat)
  deriving DecidableEq

/-- What the program itself does not decide. -/
inductive Choice where
  | go
  /-- The address that `Cronet_Engine_Create` returns. -/
  | create (address : Nat)
  | call (id : Nat) (op : Op)
  | shutdown (id : Nat)
  | drop (id : Nat)
  /-- A future is dropped. -/
  | cancel
  /-- A thread cannot be spawned, or `Cronet_Engine_Shutdown` returns an error. -/
  | fail
  deriving DecidableEq

namespace Shared

/-- The engine of a number changes. -/
def update (s : Shared) (id : Nat) (f : Instance → Instance) : Shared :=
  { s with engines := Function.update s.engines id (f (s.engines id)) }

/-- A call is over. -/
def leave (s : Shared) (id : Nat) : Shared :=
  s.update id fun e => { e with users := e.users - 1 }

/-- `EngineShutdown` is returned. -/
def refuse (s : Shared) (id : Nat) : Shared :=
  { s with trace := s.trace ++ [.refused id] }

/-- The function that `with_native` was called with. -/
def apply (s : Shared) (id : Nat) : Op → Shared
  | .bindToNetwork handle =>
    { s with process := s.process.bindToNetwork (s.engines id).address handle,
             trace := s.trace ++ [.bound id handle] }
  | .boundNetwork =>
    { s with trace := s.trace ++ [.read id (s.process.boundNetwork (s.engines id).address)] }

end Shared

/-- The application has a handle of the engine. -/
def Instance.held (e : Instance) : Bool := !e.dropped

/-- The application creates engines, calls them and closes them. -/
def appStep (s : Shared) : Choice → Option (Shared × List Thread)
  -- an allocator gives out no address that is in use
  | .create address =>
    if address = 0 ∨ ∃ id < s.count, (s.engines id).alive ∧ (s.engines id).address = address then
      none
    else
      some ({ s.update s.count fun _ => { address := address, native := true, alive := true } with
                count := s.count + 1, trace := s.trace ++ [.created s.count address] }, [.app])
  | .call id op =>
    if id < s.count ∧ (s.engines id).held then
      some (s.update id fun e => { e with users := e.users + 1 }, [.app, .load id op])
    else none
  | .shutdown id =>
    if id < s.count ∧ (s.engines id).held then
      some (s.update id fun e => { e with users := e.users + 1 }, [.app, .closeLock id])
    else none
  -- `Drop for EngineInner`
  | .drop id =>
    if (id < s.count ∧ (s.engines id).held) ∧ (s.engines id).users = 0 then
      some (s.update id fun e => { e with dropped := true, native := false },
        if (s.engines id).native then [.app, .clear id] else [.app])
    else none
  | _ => none

/-- One step of a thread. -/
def step (s : Shared) : Thread → Choice → Option (Shared × List Thread)
  | .app, ch => appStep s ch
  | .load id op, .go =>
    if (s.engines id).closing then some ((s.refuse id).leave id, [])
    else some (s, [.lock id op])
  | .lock id op, .go =>
    if (s.engines id).lock then none
    else some (s.update id fun e => { e with lock := true }, [.check id op])
  | .check id op, .go =>
    if (s.engines id).closing then some (s.refuse id, [.unlock id])
    else some (s, [.asRef id op])
  | .asRef id op, .go =>
    if (s.engines id).native then some (s, [.function id op])
    else some (s.refuse id, [.unlock id])
  | .function id op, .go => some (s.apply id op, [.unlock id])
  | .unlock id, .go => some ((s.update id fun e => { e with lock := false }).leave id, [])
  | .closeLock id, .go =>
    if (s.engines id).lock then none
    else some (s.update id fun e => { e with lock := true }, [.closeStore id])
  | .closeStore id, .go =>
    some ({ s.update id fun e => { e with closing := true } with
              trace := s.trace ++ [.closed id] }, [.closeUnlock id])
  | .closeUnlock id, .go => some (s.update id fun e => { e with lock := false }, [.cell id])
  -- `get_or_init`
  | .cell id, .go =>
    match (s.engines id).cell with
    | .empty => some (s.update id fun e => { e with cell := .initializing }, [.wait id])
    | .initializing => none
    | .full => some (s.leave id, [])
  | .cell id, .cancel => some (s.leave id, [])
  -- until nothing is active and no request is unfinished
  | .wait id, .go => some (s, [.takeLock id])
  | .wait id, .cancel => some ((s.update id fun e => { e with cell := .empty }).leave id, [])
  | .takeLock id, .go =>
    if (s.engines id).lock then none
    else some (s.update id fun e => { e with lock := true }, [.take id])
  | .take id, .go =>
    some (s.update id fun e => { e with native := false },
      [.takeUnlock id (s.engines id).native])
  | .takeUnlock id native, .go =>
    some (s.update id fun e => { e with lock := false },
      if native then [.join id, .clear id] else [.join id])
  -- the blocking task is not run, and the `NativeEngine` is dropped
  | .takeUnlock id _, .fail => some (s.update id fun e => { e with lock := false }, [.join id])
  | .join id, .go => some ((s.update id fun e => { e with cell := .full }).leave id, [])
  | .join id, .cancel => some ((s.update id fun e => { e with cell := .empty }).leave id, [])
  | .clear id, .go =>
    some ({ s with process :=
              s.process.bindToNetwork (s.engines id).address unbindNetworkHandle }, [.stop id])
  -- the thread of a dropped engine is not spawned
  | .clear _, .fail => some (s, [])
  | .stop id, .go => some (s, [.destroy id])
  | .stop _, .fail => some (s, [])
  | .destroy id, .go =>
    some ({ s.update id fun e => { e with alive := false } with
              trace := s.trace ++ [.destroyed id] }, [])
  | _, _ => none

/-- No engine yet. -/
def start : Listed Shared Thread := ⟨{}, [.app]⟩

variable {s s' : Shared} {t u : Thread} {ch : Choice} {ts : List Thread} {i : Nat}

/-! ## The table -/

section Table

variable (p : Process) (engine : Nat) (handle : Int)

theorem mem_bindToNetwork {address : Nat} {h : Int}
    (hmem : (address, h) ∈ (p.bindToNetwork engine handle).boundNetworks) :
    (address, h) ∈ p.boundNetworks ∧ address ≠ engine ∨ address = engine ∧ h = handle := by
  have hfilter : ∀ {address : Nat} {h : Int},
      (address, h) ∈ p.boundNetworks.filter (fun b => b.1 ≠ engine) →
        (address, h) ∈ p.boundNetworks ∧ address ≠ engine := by
    intro address h hmem
    obtain ⟨hmem, hne⟩ := List.mem_filter.mp hmem
    exact ⟨hmem, of_decide_eq_true hne⟩
  unfold Process.bindToNetwork at hmem
  split at hmem
  · exact .inl (hfilter hmem)
  · rcases List.mem_cons.mp hmem with heq | hmem
    · cases heq
      exact .inr ⟨rfl, rfl⟩
    · exact .inl (hfilter hmem)

/-- Unbinding leaves no entry. -/
theorem notMem_unbind (h : Int) :
    (engine, h) ∉ (p.bindToNetwork engine unbindNetworkHandle).boundNetworks := by
  intro hmem
  rw [Process.bindToNetwork, if_pos (.inr rfl)] at hmem
  exact of_decide_eq_true (List.mem_filter.mp hmem).2 rfl

theorem find_filter_ne {other : Nat} (hne : other ≠ engine) (l : List (Nat × Int)) :
    (l.filter fun b => b.1 ≠ engine).find? (fun b => b.1 = other) =
      l.find? fun b => b.1 = other := by
  rw [List.find?_filter]
  refine congrArg (List.find? · l) (funext fun b => ?_)
  by_cases hb : b.1 = other
  · simp [hb, hne]
  · simp [hb]

theorem boundNetwork_bind_ne {other : Nat} (hne : other ≠ engine) :
    (p.bindToNetwork engine handle).boundNetwork other = p.boundNetwork other := by
  by_cases hc : engine = 0 ∨ handle = unbindNetworkHandle
  · rw [Process.bindToNetwork, if_pos hc, Process.boundNetwork, find_filter_ne engine hne]
    rfl
  · rw [Process.bindToNetwork, if_neg hc, Process.boundNetwork,
      List.find?_cons_of_neg (by simp [hne.symm]), find_filter_ne engine hne]
    rfl

/-- What is not in the table is not bound. -/
theorem boundNetwork_of_notMem (h : ∀ k, (engine, k) ∉ p.boundNetworks) :
    p.boundNetwork engine = unbindNetworkHandle := by
  have hnone : p.boundNetworks.find? (fun b => b.1 = engine) = none := by
    rw [List.find?_eq_none]
    intro b hb heq
    obtain ⟨address, k⟩ := b
    obtain rfl : address = engine := of_decide_eq_true heq
    exact h k hb
  rw [Process.boundNetwork, hnone]

theorem boundNetwork_bind (hne : engine ≠ 0) :
    (p.bindToNetwork engine handle).boundNetwork engine = handle := by
  by_cases hunbind : handle = unbindNetworkHandle
  · rw [hunbind, boundNetwork_of_notMem _ _ (notMem_unbind p engine)]
  · rw [Process.bindToNetwork, if_neg (not_or.mpr ⟨hne, hunbind⟩), Process.boundNetwork,
      List.find?_cons_of_pos (by simp)]

end Table

/-! ## Changes of one engine -/

namespace Shared

variable {s : Shared} {id i : Nat} {f g : Instance → Instance} {op : Op}

@[simp] theorem update_process : (s.update id f).process = s.process := rfl

@[simp] theorem update_trace : (s.update id f).trace = s.trace := rfl

@[simp] theorem update_count : (s.update id f).count = s.count := rfl

theorem update_engines :
    (s.update id f).engines i = if i = id then f (s.engines i) else s.engines i := by
  by_cases hi : i = id
  · subst hi
    rw [if_pos rfl]
    exact Function.update_self i _ _
  · rw [if_neg hi]
    exact Function.update_of_ne hi _ _

@[simp] theorem leave_process : (s.leave id).process = s.process := rfl

@[simp] theorem leave_trace : (s.leave id).trace = s.trace := rfl

@[simp] theorem leave_count : (s.leave id).count = s.count := rfl

theorem leave_engines : (s.leave id).engines i =
    if i = id then { s.engines i with users := (s.engines i).users - 1 } else s.engines i :=
  update_engines

@[simp] theorem refuse_process : (s.refuse id).process = s.process := rfl

@[simp] theorem refuse_trace : (s.refuse id).trace = s.trace ++ [.refused id] := rfl

@[simp] theorem refuse_count : (s.refuse id).count = s.count := rfl

@[simp] theorem refuse_engines : (s.refuse id).engines = s.engines := rfl

@[simp] theorem apply_count : (s.apply id op).count = s.count := by
  cases op <;> rfl

@[simp] theorem apply_engines : (s.apply id op).engines = s.engines := by
  cases op <;> rfl

end Shared

/-! ## The engine that a step is about -/

/-- The engine that a thread works on. -/
def Thread.id : Thread → Nat
  | .app => 0
  | .load id _ | .lock id _ | .check id _ | .asRef id _ | .function id _ | .unlock id
  | .closeLock id | .closeStore id | .closeUnlock id | .cell id | .wait id
  | .takeLock id | .take id | .takeUnlock id _ | .join id
  | .clear id | .stop id | .destroy id => id

/-- The engine that a step is about. -/
def target (s : Shared) : Thread → Choice → Nat
  | .app, .create _ => s.count
  | .app, .call id _ | .app, .shutdown id | .app, .drop id => id
  | t, _ => t.id

/-- A step changes no other engine, and its threads stay with the one they are of. -/
theorem step_target (h : step s t ch = some (s', ts)) :
    (∀ i ≠ target s t ch, s'.engines i = s.engines i) ∧
      ∀ u ∈ t :: ts, u = .app ∨ u.id = target s t ch := by
  revert h
  fun_cases step s t ch
  case case1 =>
    fun_cases appStep s ch <;> first | exact of_none | apply of_some
    all_goals
      simp +contextual [target, Shared.update_engines]
    all_goals first | rfl | (split <;> simp [Thread.id])
  all_goals first | exact of_none | apply of_some
  all_goals
      simp +contextual [target, Thread.id, Shared.update_engines, Shared.leave_engines]
  split <;> simp

/-! ## What threads hold -/

/-- What a thread holds of one engine. -/
def Thread.at (w : Thread → Nat) (i : Nat) (t : Thread) : Nat := if t.id = i then w t else 0

/-- Calls in progress. -/
def Thread.user : Thread → Nat
  | .app | .clear _ | .stop _ | .destroy _ => 0
  | _ => 1

/-- Locks of the `native` mutex. -/
def Thread.holds : Thread → Nat
  | .check _ _ | .asRef _ _ | .function _ _ | .unlock _ | .closeStore _
  | .closeUnlock _ | .take _ | .takeUnlock _ _ => 1
  | _ => 0

/-- The `NativeEngine`, taken out of its slot and not yet destroyed. -/
def Thread.runs : Thread → Nat
  | .takeUnlock _ native => native.toNat
  | .clear _ | .stop _ | .destroy _ => 1
  | _ => 0

theorem at_of_target {w : Thread → Nat} {u : Thread} (hw : w .app = 0)
    (h : u = .app ∨ u.id = i) : u.at w i = w u := by
  unfold Thread.at
  split
  · rfl
  · rcases h with rfl | h
    · exact hw.symm
    · contradiction

theorem at_of_ne {w : Thread → Nat} {u : Thread} {k : Nat} (hw : w .app = 0) (hne : i ≠ k)
    (h : u = .app ∨ u.id = k) : u.at w i = 0 := by
  unfold Thread.at
  split
  · rcases h with rfl | h
    · exact hw
    · exact absurd (by omega) hne
  · rfl

theorem sum_at_of_target {w : Thread → Nat} (hw : w .app = 0)
    (h : ∀ u ∈ ts, u = .app ∨ u.id = i) : (ts.map (Thread.at w i)).sum = (ts.map w).sum := by
  rw [List.map_congr_left fun u hu => at_of_target hw (h u hu)]

theorem sum_at_of_ne {w : Thread → Nat} {k : Nat} (hw : w .app = 0) (hne : i ≠ k)
    (h : ∀ u ∈ ts, u = .app ∨ u.id = k) : (ts.map (Thread.at w i)).sum = 0 := by
  rw [List.map_congr_left fun u hu => at_of_ne hw hne (h u hu)]
  simp

theorem step_users (hfresh : s.engines s.count = {}) (h : step s t ch = some (s', ts))
    (hle : t.user ≤ (s.engines (target s t ch)).users) :
    (s'.engines (target s t ch)).users + t.user =
      (s.engines (target s t ch)).users + (ts.map Thread.user).sum := by
  revert h hle
  fun_cases step s t ch
  case case1 =>
    fun_cases appStep s ch <;> first | exact of_none | apply of_some
    all_goals
      intro hle
      simp_all [Thread.user, target, Shared.update_engines]
    split <;> simp [Thread.user]
  all_goals first | exact of_none | apply of_some
  all_goals
    intro hle
    simp_all [Thread.user, target, Thread.id, Shared.update_engines, Shared.leave_engines]
  split <;> simp [Thread.user]

theorem step_holds (hfresh : s.engines s.count = {}) (h : step s t ch = some (s', ts))
    (hle : t.holds ≤ (s.engines (target s t ch)).lock.toNat) :
    (s'.engines (target s t ch)).lock.toNat + t.holds =
      (s.engines (target s t ch)).lock.toNat + (ts.map Thread.holds).sum := by
  have hbound := Bool.toNat_le (s.engines (target s t ch)).lock
  revert h hle hbound
  fun_cases step s t ch
  case case1 =>
    fun_cases appStep s ch <;> first | exact of_none | apply of_some
    all_goals
      intro hle hbound
      simp_all [Thread.holds, target, Shared.update_engines]
    split <;> simp [Thread.holds]
  all_goals first | exact of_none | apply of_some
  all_goals
    intro hle hbound
    simp_all [Thread.holds, target, Thread.id, Shared.update_engines, Shared.leave_engines]
  all_goals first | omega | (split <;> simp [Thread.holds] <;> omega)

/-- What keeps the slot of an engine and its destruction from being had twice. -/
def Instance.spent (e : Instance) : Nat := e.native.toNat + (!e.alive).toNat

theorem step_runs (hfresh : s.engines s.count = {}) (h : step s t ch = some (s', ts)) :
    (s'.engines (target s t ch)).spent + (ts.map Thread.runs).sum ≤
      (s.engines (target s t ch)).spent + t.runs := by
  revert h
  fun_cases step s t ch
  case case1 =>
    fun_cases appStep s ch <;> first | exact of_none | apply of_some
    all_goals
      simp_all [Instance.spent, Thread.runs, target, Shared.update_engines]
    split <;> simp_all [Thread.runs, Nat.add_comm]
  all_goals first | exact of_none | apply of_some
  all_goals
      simp_all [Instance.spent, Thread.runs, target, Thread.id, Shared.update_engines,
        Shared.leave_engines]
  all_goals first | omega | (split <;> simp_all [Thread.runs])

/-- A step about one engine balances the books of that one, and of the others. -/
theorem ledger_at {w : Thread → Nat} {n : Instance → Nat} (hw : w .app = 0)
    (h : step s t ch = some (s', ts))
    (hself : w t ≤ n (s.engines (target s t ch)) → n (s'.engines (target s t ch)) + w t =
      n (s.engines (target s t ch)) + (ts.map w).sum) (i : Nat)
    (hle : t.at w i ≤ n (s.engines i)) :
    n (s'.engines i) + t.at w i = n (s.engines i) + (ts.map (Thread.at w i)).sum := by
  obtain ⟨hsame, hids⟩ := step_target h
  have ht := hids t List.mem_cons_self
  have hts : ∀ u ∈ ts, u = .app ∨ u.id = target s t ch := fun u hu =>
    hids u (List.mem_cons_of_mem t hu)
  by_cases hi : i = target s t ch
  · subst hi
    rw [at_of_target hw ht] at hle ⊢
    rw [sum_at_of_target hw hts]
    exact hself hle
  · rw [hsame i hi, at_of_ne hw hi ht, sum_at_of_ne hw hi hts]

theorem budget_at {w : Thread → Nat} {n : Instance → Nat} (hw : w .app = 0)
    (h : step s t ch = some (s', ts))
    (hself : n (s'.engines (target s t ch)) + (ts.map w).sum ≤
      n (s.engines (target s t ch)) + w t) (i : Nat) :
    n (s'.engines i) + (ts.map (Thread.at w i)).sum ≤ n (s.engines i) + t.at w i := by
  obtain ⟨hsame, hids⟩ := step_target h
  have ht := hids t List.mem_cons_self
  have hts : ∀ u ∈ ts, u = .app ∨ u.id = target s t ch := fun u hu =>
    hids u (List.mem_cons_of_mem t hu)
  by_cases hi : i = target s t ch
  · subst hi
    rw [at_of_target hw ht, sum_at_of_target hw hts]
    exact hself
  · rw [hsame i hi, at_of_ne hw hi ht, sum_at_of_ne hw hi hts]

/-! ## Books and ids -/

/-- The threads work on engines that were created, and what they hold of each adds up. -/
structure Books (c : Config Shared Thread) : Prop where
  /-- No thread works on an engine to come. -/
  known : ∀ u ∈ c.threads, u = .app ∨ u.id < c.shared.count
  /-- Engines to come are as they were. -/
  fresh : ∀ i, c.shared.count ≤ i → c.shared.engines i = {}
  /-- The users of an engine are the threads that use it. -/
  users : ∀ i, (c.shared.engines i).users = total (Thread.at Thread.user i) c.threads
  /-- The lock of an engine is held by the thread that has it. -/
  locks : ∀ i, (c.shared.engines i).lock.toNat = total (Thread.at Thread.holds i) c.threads
  /-- The native engine is shut down at most once. -/
  runs : ∀ i, (c.shared.engines i).spent + total (Thread.at Thread.runs i) c.threads ≤ 1

theorem at_self (w : Thread → Nat) (t : Thread) : t.at w t.id = w t := if_pos rfl

theorem Books.spent_zero {c : Config Shared Thread} (hb : Books c) (ht : t ∈ c.threads)
    (hr : t.runs = 1) : (c.shared.engines t.id).spent = 0 := by
  have hle : t.at Thread.runs t.id ≤ total (Thread.at Thread.runs t.id) c.threads := le_total ht
  have hruns := hb.runs t.id
  rw [at_self] at hle
  omega

theorem Books.spent_le {c : Config Shared Thread} (hb : Books c) (i : Nat) :
    (c.shared.engines i).spent ≤ 1 :=
  Nat.le_trans (Nat.le_add_right _ _) (hb.runs i)

/-- A call in progress is counted. -/
theorem Books.user_le {c : Config Shared Thread} (hb : Books c) (ht : t ∈ c.threads) :
    t.user ≤ (c.shared.engines t.id).users := by
  rw [hb.users, ← at_self Thread.user]
  exact le_total ht

/-- The mutex excludes. -/
theorem Books.not_holds {rest : Multiset Thread} (hb : Books ⟨s, t ::ₘ rest⟩) (hu : u ∈ rest)
    (hid : u.id = t.id) (ht : t.holds = 1) : u.holds = 0 := by
  have hle : t.at Thread.holds t.id + u.at Thread.holds t.id ≤
      total (Thread.at Thread.holds t.id) (t ::ₘ rest) := add_le_total hu
  have hlocks := hb.locks t.id
  have hbound := Bool.toNat_le (s.engines t.id).lock
  rw [at_self, ← hid, at_self] at hle
  simp only at hlocks
  rw [hid] at hle
  omega

theorem step_count (h : step s t ch = some (s', ts)) :
    s.count ≤ s'.count ∧ (t = .app ∨ t.id < s.count → target s t ch < s'.count) := by
  revert h
  fun_cases step s t ch
  case case1 =>
    fun_cases appStep s ch <;> first | exact of_none | (apply of_some; simp_all [target])
  all_goals first | exact of_none | apply of_some
  all_goals simp [target]

theorem books_step {rest : Multiset Thread} (hb : Books ⟨s, t ::ₘ rest⟩)
    (h : step s t ch = some (s', ts)) : Books ⟨s', ts + rest⟩ := by
  have hfresh : s.engines s.count = {} := hb.fresh _ (Nat.le_refl _)
  obtain ⟨hcount, htarget⟩ := step_count h
  have ht := htarget (hb.known t (Multiset.mem_cons_self t rest))
  obtain ⟨hsame, hids⟩ := step_target h
  constructor
  · refine forall_step hb.known (fun _ u hu => ?_) fun u _ hu => hu.imp_right fun hlt => ?_
    · refine (hids u (List.mem_cons_of_mem t hu)).imp_right fun heq => ?_
      rw [heq]
      exact ht
    · exact Nat.lt_of_lt_of_le hlt hcount
  · intro i hi
    have hi : s'.count ≤ i := hi
    change s'.engines i = {}
    rw [hsame i (by omega)]
    exact hb.fresh i (Nat.le_trans hcount hi)
  · exact fun i => ledger_step (hb.users i) (ledger_at rfl h (step_users hfresh h) i)
  · exact fun i => ledger_step (hb.locks i)
      (ledger_at (n := fun e => e.lock.toNat) rfl h (step_holds hfresh h) i)
  · exact fun i => budget_step (hb.runs i) (budget_at rfl h (step_runs hfresh h) i)

/-- The application holds nothing. -/
theorem total_start {w : Thread → Nat} (hw : w .app = 0) (i : Nat) :
    total (Thread.at w i) start.config.threads = 0 := by
  rw [start, Listed.config, total_coe, List.map_singleton, List.sum_singleton]
  exact at_of_target hw (.inl rfl) ▸ hw

theorem books_start : Books start.config := by
  constructor
  · exact fun u hu => .inl (List.mem_singleton.mp (Multiset.mem_coe.mp hu))
  · exact fun i _ => rfl
  · exact fun i => (total_start rfl i).symm
  · exact fun i => (total_start rfl i).symm
  · intro i
    rw [total_start rfl]
    exact Nat.le_refl 1

/-! ## What a step does to the table and to the objects -/

/-- Nothing happens to the table and to the objects. -/
structure Calm (s s' : Shared) : Prop where
  /-- The table stays. -/
  process : s'.process = s.process
  /-- No engine is created. -/
  count : s'.count = s.count
  /-- The objects stay, and no slot is filled. -/
  engines : ∀ i, (s'.engines i).address = (s.engines i).address ∧
    (s'.engines i).alive = (s.engines i).alive ∧
    ((s'.engines i).native = true → (s.engines i).native = true)

/-- The kinds of steps, as far as the table and the life of the objects go. -/
inductive Kind (s : Shared) : Thread → Shared → Prop
  | quiet {t : Thread} {s' : Shared} : Calm s s' → s'.trace = s.trace → Kind s t s'
  | refuse {t : Thread} {s' : Shared} : t.user = 1 →
      (s.engines t.id).closing = true ∨ (s.engines t.id).native = false → Calm s s' →
      s'.trace = s.trace ++ [.refused t.id] → Kind s t s'
  | close {s' : Shared} (id : Nat) : Calm s s' → s'.trace = s.trace ++ [.closed id] →
      Kind s (.closeStore id) s'
  | create (address : Nat) : address ≠ 0 →
      (∀ i < s.count, (s.engines i).alive = true → (s.engines i).address ≠ address) →
      Kind s .app
        { s.update s.count fun _ => { address := address, native := true, alive := true } with
            count := s.count + 1, trace := s.trace ++ [.created s.count address] }
  | apply (id : Nat) (op : Op) : Kind s (.function id op) (s.apply id op)
  | clear (id : Nat) : Kind s (.clear id)
      { s with process := s.process.bindToNetwork (s.engines id).address unbindNetworkHandle }
  | destroy (id : Nat) : Kind s (.destroy id)
      { s.update id fun e => { e with alive := false } with
        trace := s.trace ++ [.destroyed id] }

theorem Calm.refl : Calm s s := ⟨rfl, rfl, fun _ => ⟨rfl, rfl, fun h => h⟩⟩

theorem Calm.update {id : Nat} {f : Instance → Instance} (h : Calm s s')
    (hf : ∀ e, (f e).address = e.address ∧ (f e).alive = e.alive ∧
      ((f e).native = true → e.native = true)) : Calm s (s'.update id f) := by
  refine ⟨h.process, h.count, fun i => ?_⟩
  obtain ⟨haddress, halive, hnative⟩ := h.engines i
  obtain ⟨haddress', halive', hnative'⟩ := hf (s'.engines i)
  rw [Shared.update_engines]
  split
  · exact ⟨haddress'.trans haddress, halive'.trans halive, fun h => hnative (hnative' h)⟩
  · exact ⟨haddress, halive, hnative⟩

theorem Calm.leave {id : Nat} (h : Calm s s') : Calm s (s'.leave id) :=
  h.update fun _ => ⟨rfl, rfl, fun h => h⟩

theorem step_kind (h : step s t ch = some (s', ts)) : Kind s t s' := by
  revert h
  fun_cases step s t ch
  case case1 =>
    fun_cases appStep s ch <;> first | exact of_none | apply of_some
    case case2 address hfree =>
      obtain ⟨hzero, hfree⟩ := not_or.mp hfree
      refine .create address hzero fun i hi halive heq => hfree ⟨i, hi, halive, heq⟩
    all_goals
      refine .quiet (Calm.refl.update fun e => ⟨rfl, rfl, ?_⟩) rfl
      simp
  all_goals
    intro h
    cases h
  case case2 hclosing =>
    exact .refuse rfl (.inl hclosing) (Calm.leave ⟨rfl, rfl, Calm.refl.engines⟩) rfl
  case case6 hclosing => exact .refuse rfl (.inl hclosing) ⟨rfl, rfl, Calm.refl.engines⟩ rfl
  case case9 hnative =>
    exact .refuse rfl (.inr (Bool.eq_false_of_not_eq_true hnative))
      ⟨rfl, rfl, Calm.refl.engines⟩ rfl
  case case10 id op => exact .apply id op
  case case14 id =>
    have hcalm : Calm s (s.update id fun e => { e with closing := true }) :=
      Calm.refl.update fun _ => ⟨rfl, rfl, fun h => h⟩
    exact .close id ⟨hcalm.process, hcalm.count, hcalm.engines⟩ rfl
  case case29 id => exact .clear id
  case case33 id => exact .destroy id
  all_goals first
    | exact .quiet Calm.refl rfl
    | exact .quiet (Calm.refl.update fun _ => ⟨rfl, rfl, by simp⟩) rfl
    | exact .quiet Calm.refl.leave rfl
    | (refine .quiet (Calm.leave (Calm.update Calm.refl fun _ => ?_)) rfl
       exact ⟨rfl, rfl, by simp⟩)

/-- What a step does to the slot of an engine, and to its `closing`: a `NativeEngine` is taken
out by `shutdown` or by the last drop, and what is stored in `closing` stays. -/
theorem step_slot (h : step s t ch = some (s', ts)) :
    ((s.engines i).native = true →
      (s'.engines i).native = true ∨ t = .take i ∨ t = .app ∧ (s.engines i).users = 0) ∧
    (i < s.count → (s.engines i).closing = true → (s'.engines i).closing = true) ∧
    ((s'.engines i).closing = true → (s.engines i).closing = true ∨ .closed i ∈ s'.trace) := by
  by_cases hi : i = target s t ch
  · subst hi
    revert h
    fun_cases step s t ch
    case case1 =>
      fun_cases appStep s ch <;> first | exact of_none | apply of_some
      all_goals
        simp_all [target, Shared.update_engines]
    all_goals first | exact of_none | apply of_some
    all_goals
        simp_all [target, Thread.id, Shared.update_engines, Shared.leave_engines]
  · rw [(step_target h).1 i hi]
    exact ⟨.inl, fun _ => id, .inl⟩

/-! ## The table -/

/-- What the handle of an engine is after an event. -/
def Event.after (i : Nat) (handle : Int) : Event → Int
  | .created id _ => if id = i then unbindNetworkHandle else handle
  | .bound id h => if id = i then h else handle
  | _ => handle

/-- The handle of the last `bind_to_network` of an engine since its creation. -/
def lastBound (i : Nat) (trace : List Event) : Int :=
  trace.foldl (Event.after i) unbindNetworkHandle

@[simp] theorem lastBound_append (trace : List Event) (e : Event) :
    lastBound i (trace ++ [e]) = e.after i (lastBound i trace) := by
  rw [lastBound, List.foldl_append]
  rfl

/-- What a thread knows of the engine it works on. -/
def Thread.Sound (s : Shared) : Thread → Prop
  | .function id _ => (s.engines id).native = true
  | .stop id | .destroy id =>
    ∀ handle, ((s.engines id).address, handle) ∉ s.process.boundNetworks
  | _ => True

/-- Every entry is that of an object, and an open engine has its own. -/
structure Table (s : Shared) : Prop where
  /-- Two objects have two addresses. -/
  distinct : ∀ i j, (s.engines i).alive = true → (s.engines j).alive = true →
    (s.engines i).address = (s.engines j).address → i = j
  /-- No object is at the null address. -/
  nonzero : ∀ i, (s.engines i).alive = true → (s.engines i).address ≠ 0
  /-- An entry is that of an object, with the handle it was bound to last. -/
  owned : ∀ address handle, (address, handle) ∈ s.process.boundNetworks → ∃ i,
    (s.engines i).alive = true ∧ (s.engines i).address = address ∧ lastBound i s.trace = handle
  /-- An open engine has the entry that it was bound to last. -/
  kept : ∀ i, (s.engines i).native = true →
    s.process.boundNetwork (s.engines i).address = lastBound i s.trace

/-- An object whose slot is full was not destroyed. -/
theorem Instance.alive_of_native {e : Instance} (hs : e.spent ≤ 1) (hn : e.native = true) :
    e.alive = true := by
  cases ha : e.alive with
  | true => rfl
  | false =>
    rw [Instance.spent, hn, ha] at hs
    contradiction

/-- While an object is being destroyed its slot is empty. -/
theorem Instance.of_spent_zero {e : Instance} (hs : e.spent = 0) :
    e.alive = true ∧ e.native = false := by
  obtain ⟨hn, ha⟩ := Nat.add_eq_zero_iff.mp hs
  exact ⟨by simpa using ha, by simpa using hn⟩

theorem Calm.table (hc : Calm s s') (htrace : ∀ i, lastBound i s'.trace = lastBound i s.trace)
    (ht : Table s) : Table s' := by
  have haddress : ∀ i, (s'.engines i).address = (s.engines i).address := fun i =>
    (hc.engines i).1
  have halive : ∀ i, (s'.engines i).alive = (s.engines i).alive := fun i => (hc.engines i).2.1
  constructor
  · intro i j
    rw [haddress, haddress, halive, halive]
    exact ht.distinct i j
  · intro i
    rw [haddress, halive]
    exact ht.nonzero i
  · intro address handle hmem
    rw [hc.process] at hmem
    obtain ⟨i, hi⟩ := ht.owned address handle hmem
    refine ⟨i, ?_⟩
    rw [haddress, halive, htrace]
    exact hi
  · intro i hi
    rw [hc.process, haddress, htrace]
    exact ht.kept i ((hc.engines i).2.2 hi)

/-- A created engine finds no entry at its address. -/
theorem Table.create (ht : Table s) (hfresh : ∀ i, s.count ≤ i → s.engines i = {})
    {address : Nat} (hzero : address ≠ 0)
    (hfree : ∀ i < s.count, (s.engines i).alive = true → (s.engines i).address ≠ address) :
    Table { s.update s.count fun _ => { address := address, native := true, alive := true } with
      count := s.count + 1, trace := s.trace ++ [.created s.count address] } := by
  have hold : ∀ i, (s.engines i).alive = true → i ≠ s.count ∧ (s.engines i).address ≠ address := by
    intro i hi
    have hlt : i < s.count := by
      by_contra hge
      rw [hfresh i (by omega)] at hi
      contradiction
    exact ⟨Nat.ne_of_lt hlt, hfree i hlt hi⟩
  constructor
  · intro i j
    simp only [Shared.update_engines]
    split <;> split
    · intro _ _ _
      omega
    · intro _ hj heq
      exact absurd heq.symm (hold j hj).2
    · intro hi _ heq
      exact absurd heq (hold i hi).2
    · exact ht.distinct i j
  · intro i
    simp only [Shared.update_engines]
    split
    · exact fun _ => hzero
    · exact ht.nonzero i
  · intro a handle hmem
    obtain ⟨i, hi, ha, hlast⟩ := ht.owned a handle hmem
    refine ⟨i, ?_⟩
    have hne := (hold i hi).1
    simp only [Shared.update_engines, if_neg hne, lastBound_append, Event.after, if_neg hne.symm]
    exact ⟨hi, ha, hlast⟩
  · intro i
    simp only [Shared.update_engines, lastBound_append, Event.after]
    by_cases hi : i = s.count
    · subst hi
      rw [if_pos rfl, if_pos rfl]
      intro _
      refine boundNetwork_of_notMem _ _ fun k hmem => ?_
      obtain ⟨j, hj, ha, -⟩ := ht.owned address k hmem
      exact (hold j hj).2 ha
    · rw [if_neg hi, if_neg (Ne.symm hi)]
      exact ht.kept i

theorem Table.bind (ht : Table s) (hspent : ∀ i, (s.engines i).spent ≤ 1) {id : Nat}
    (halive : (s.engines id).alive = true) (handle : Int) :
    Table (s.apply id (.bindToNetwork handle)) := by
  have hother : ∀ i, (s.engines i).alive = true → i ≠ id →
      (s.engines i).address ≠ (s.engines id).address := fun i hi hne heq =>
    hne (ht.distinct i id hi halive heq)
  constructor
  · exact ht.distinct
  · exact ht.nonzero
  · intro address k hmem
    rcases mem_bindToNetwork _ _ _ hmem with ⟨hmem, hne⟩ | ⟨rfl, rfl⟩
    · obtain ⟨i, hi, rfl, hlast⟩ := ht.owned address k hmem
      refine ⟨i, hi, rfl, ?_⟩
      have hid : id ≠ i := fun heq => hne (by rw [heq])
      simp only [Shared.apply, lastBound_append, Event.after, if_neg hid]
      exact hlast
    · refine ⟨id, halive, rfl, ?_⟩
      simp only [Shared.apply, lastBound_append, Event.after, if_pos]
  · intro i hi
    simp only [Shared.apply, lastBound_append, Event.after]
    by_cases hid : id = i
    · subst hid
      rw [if_pos rfl]
      exact boundNetwork_bind _ _ _ (ht.nonzero id halive)
    · rw [if_neg hid]
      have hne := hother i (Instance.alive_of_native (hspent i) hi) (Ne.symm hid)
      exact (boundNetwork_bind_ne _ _ _ hne).trans (ht.kept i hi)

theorem Table.clear (ht : Table s) (hspent : ∀ i, (s.engines i).spent ≤ 1) {id : Nat}
    (hid : (s.engines id).spent = 0) :
    Table { s with process :=
      s.process.bindToNetwork (s.engines id).address unbindNetworkHandle } := by
  obtain ⟨halive, hnative⟩ := Instance.of_spent_zero hid
  constructor
  · exact ht.distinct
  · exact ht.nonzero
  · intro address handle hmem
    rcases mem_bindToNetwork _ _ _ hmem with ⟨hmem, -⟩ | ⟨rfl, rfl⟩
    · exact ht.owned address handle hmem
    · exact absurd hmem (notMem_unbind _ _ _)
  · intro i hi
    have hne : (s.engines i).address ≠ (s.engines id).address := by
      intro heq
      rw [ht.distinct i id (Instance.alive_of_native (hspent i) hi) halive heq, hnative] at hi
      contradiction
    exact (boundNetwork_bind_ne _ _ _ hne).trans (ht.kept i hi)

theorem Table.destroy (ht : Table s) {id : Nat}
    (hgone : ∀ handle, ((s.engines id).address, handle) ∉ s.process.boundNetworks) :
    Table { s.update id fun e => { e with alive := false } with
      trace := s.trace ++ [.destroyed id] } := by
  have halive : ∀ i, ((s.update id fun e => { e with alive := false }).engines i).alive = true →
      i ≠ id ∧ (s.engines i).alive = true := by
    intro i
    rw [Shared.update_engines]
    split
    · exact nofun
    · exact fun hi => ⟨‹_›, hi⟩
  have haddress : ∀ i, ((s.update id fun e => { e with alive := false }).engines i).address =
      (s.engines i).address := by
    intro i
    rw [Shared.update_engines]
    split <;> rfl
  constructor
  · intro i j hi hj heq
    simp only [haddress] at heq
    exact ht.distinct i j (halive i hi).2 (halive j hj).2 heq
  · intro i hi
    simp only [haddress]
    exact ht.nonzero i (halive i hi).2
  · intro address handle hmem
    obtain ⟨i, hi, rfl, hlast⟩ := ht.owned address handle hmem
    have hne : i ≠ id := fun heq => hgone handle (heq ▸ hmem)
    refine ⟨i, ?_, haddress i, ?_⟩
    · simp only [Shared.update_engines, if_neg hne]
      exact hi
    · simp only [lastBound_append, Event.after]
      exact hlast
  · intro i
    simp only [haddress, lastBound_append, Event.after]
    intro hi
    refine ht.kept i ?_
    simp only [Shared.update_engines] at hi
    split at hi <;> exact hi

theorem table_step {rest : Multiset Thread} (hb : Books ⟨s, t ::ₘ rest⟩)
    (hs : t.Sound s) (h : step s t ch = some (s', ts)) (ht : Table s) : Table s' := by
  have hspent : ∀ i, (s.engines i).spent ≤ 1 := hb.spent_le
  cases step_kind h with
  | quiet hc htrace => exact hc.table (fun i => by rw [htrace]) ht
  | refuse _ _ hc htrace | close _ hc htrace =>
    refine hc.table (fun i => ?_) ht
    rw [htrace, lastBound_append]
    rfl
  | create address hzero hfree => exact ht.create hb.fresh hzero hfree
  | apply id op =>
    cases op with
    | bindToNetwork handle => exact ht.bind hspent (Instance.alive_of_native (hspent id) hs) handle
    | boundNetwork =>
      refine ⟨ht.distinct, ht.nonzero, fun a k hmem => ?_, fun i hi => ?_⟩
      · obtain ⟨i, hi, ha, hlast⟩ := ht.owned a k hmem
        exact ⟨i, hi, ha, by simpa [Shared.apply, Event.after] using hlast⟩
      · simpa [Shared.apply, Event.after] using ht.kept i hi
  | clear id =>
    exact ht.clear hspent
      (hb.spent_zero (t := .clear id) (Multiset.mem_cons_self (.clear id) rest) rfl)
  | destroy id => exact ht.destroy hs

/-- What a thread that moved knows. -/
theorem step_sound (h : step s t ch = some (s', ts)) (hs : t.Sound s) :
    ∀ u ∈ ts, u.Sound s' := by
  revert h hs
  fun_cases step s t ch
  case case1 =>
    fun_cases appStep s ch <;> first | exact of_none | apply of_some
    all_goals
      intro _
      simp [Thread.Sound]
    split <;> simp
  all_goals first | exact of_none | apply of_some
  all_goals intro hs
  case case25 id native => cases native <;> simp [Thread.Sound]
  case case29 id =>
    intro u hu
    obtain rfl := List.mem_singleton.mp hu
    exact notMem_unbind _ _
  all_goals simp_all [Thread.Sound]

/-- The address of an object does not change. -/
theorem step_address (h : step s t ch = some (s', ts)) (hi : i < s.count) :
    (s'.engines i).address = (s.engines i).address := by
  cases step_kind h with
  | quiet hc _ | refuse _ _ hc _ | close _ hc _ => exact (hc.engines i).1
  | create address _ _ =>
    simp only [Shared.update_engines, if_neg (Nat.ne_of_lt hi)]
  | apply id op => rw [Shared.apply_engines]
  | clear id => rfl
  | destroy id =>
    simp only [Shared.update_engines]
    split <;> rfl

/-- A new entry is that of the engine which was bound. -/
theorem step_entries (h : step s t ch = some (s', ts)) {address : Nat} {handle : Int}
    (hmem : (address, handle) ∈ s'.process.boundNetworks) :
    (address, handle) ∈ s.process.boundNetworks ∨
      ∃ id op, t = .function id op ∧ (s.engines id).address = address := by
  cases step_kind h with
  | quiet hc _ | refuse _ _ hc _ | close _ hc _ => exact .inl (hc.process ▸ hmem)
  | create _ _ _ | destroy _ => exact .inl hmem
  | apply id op =>
    cases op with
    | bindToNetwork k =>
      rcases mem_bindToNetwork _ _ _ hmem with ⟨hmem, -⟩ | ⟨rfl, -⟩
      · exact .inl hmem
      · exact .inr ⟨id, _, rfl, rfl⟩
    | boundNetwork => exact .inl hmem
  | clear id =>
    rcases mem_bindToNetwork _ _ _ hmem with ⟨hmem, -⟩ | ⟨rfl, rfl⟩
    · exact .inl hmem
    · exact absurd hmem (notMem_unbind _ _ _)

/-- No step of another thread takes what a thread knows. -/
theorem sound_other {rest : Multiset Thread} (hb : Books ⟨s, t ::ₘ rest⟩) (ht : Table s)
    (hs : t.Sound s) (h : step s t ch = some (s', ts)) (hu : u ∈ rest) (hus : u.Sound s) :
    u.Sound s' := by
  -- while an object is being destroyed nobody binds it
  have hentries : ∀ id, u.id = id → u.runs = 1 → u ≠ .app →
      (∀ handle, ((s.engines id).address, handle) ∉ s.process.boundNetworks) →
      ∀ handle, ((s'.engines id).address, handle) ∉ s'.process.boundNetworks := by
    rintro id rfl hr happ hgone handle hmem
    have hu : u ∈ t ::ₘ rest := Multiset.mem_cons_of_mem hu
    have hlt : u.id < s.count := (hb.known u hu).resolve_left happ
    rw [step_address h hlt] at hmem
    rcases step_entries h hmem with hmem | ⟨id, op, rfl, heq⟩
    · exact hgone handle hmem
    · have hid : (s.engines id).native = true := hs
      obtain ⟨halive, hnative⟩ := Instance.of_spent_zero (hb.spent_zero hu hr)
      have heq := ht.distinct id u.id (Instance.alive_of_native (hb.spent_le id) hid) halive heq
      rw [← heq] at hnative
      rw [hid] at hnative
      contradiction
  cases u with
  | function id op =>
    rcases (step_slot h).1 hus with hn | rfl | ⟨-, hzero⟩
    · exact hn
    · have hholds := hb.not_holds hu rfl rfl
      contradiction
    · have hle : 1 ≤ (s.engines id).users := hb.user_le (Multiset.mem_cons_of_mem hu)
      omega
  | stop id | destroy id => exact hentries id rfl rfl nofun hus
  | _ => trivial

/-! ## What is answered -/

/-- `closing` was stored by the thread. -/
def Thread.past : Thread → Bool
  | .closeUnlock _ | .cell _ | .wait _ | .takeLock _ | .take _ | .takeUnlock _ _ => true
  | _ => false

/-- Why the slot of an engine is empty. -/
structure Instance.Explained (e : Instance) : Prop where
  /-- A slot is emptied by a drop or by a shutdown. -/
  empty : e.native = false → e.dropped = true ∨ e.closing = true
  /-- An engine that is dropped has no users. -/
  idle : e.dropped = true → e.users = 0

theorem step_past (h : step s t ch = some (s', ts))
    (hp : t.past = true → (s.engines t.id).closing = true) :
    ∀ u ∈ ts, u.past = true → (s'.engines u.id).closing = true := by
  revert h hp
  fun_cases step s t ch
  case case1 =>
    fun_cases appStep s ch <;> first | exact of_none | apply of_some
    all_goals
      intro _
      simp [Thread.past]
    split <;> simp
  all_goals first | exact of_none | apply of_some
  all_goals
    intro hp
    simp_all [Thread.past, Thread.id, Shared.update_engines, Shared.leave_engines]
  split <;> simp

/-- Only a created engine is new. -/
theorem step_new (h : step s t ch = some (s', ts)) (hi : i < s'.count) :
    i < s.count ∨ i = target s t ch := by
  revert h hi
  fun_cases step s t ch
  case case1 =>
    fun_cases appStep s ch <;> first | exact of_none | apply of_some
    all_goals
      intro hi
      simp_all [target]
    omega
  all_goals first | exact of_none | apply of_some
  all_goals
    intro hi
    simp_all

/-- Only `shutdown` and the last drop empty a slot, the one after it has stored `closing`,
the other when no call is in progress. -/
theorem step_explained (h : step s t ch = some (s', ts))
    (hp : t.past = true → (s.engines t.id).closing = true)
    (hu : t.user ≤ (s.engines t.id).users) (ht : t = .app ∨ t.id < s.count)
    (he : ∀ i < s.count, (s.engines i).Explained) (hi : i < s'.count) :
    (s'.engines i).Explained := by
  by_cases hi' : i = target s t ch
  · subst hi'
    clear hi
    have hself : t ≠ .app → (s.engines t.id).Explained := fun hne => he _ (ht.resolve_left hne)
    clear ht
    revert h hp hu hself
    fun_cases step s t ch
    case case1 =>
      fun_cases appStep s ch <;> first | exact of_none | apply of_some
      all_goals
        intro hp hu hself
        clear hp hu hself
        simp only [target, Shared.update_engines, if_pos]
      case case2 => exact ⟨nofun, nofun⟩
      case case3 id _ hheld | case5 id hheld =>
        exact ⟨(he id hheld.1).empty, fun hd => by simp_all [Instance.held]⟩
      case case7 id hheld => exact ⟨fun _ => .inl rfl, fun _ => hheld.2⟩
    all_goals
      clear he
      intro h hp hu hself
      cases h <;> obtain ⟨hempty, hidle⟩ := hself nofun <;>
        constructor <;>
        simp_all [target, Thread.past, Thread.id, Thread.user, Shared.update_engines,
          Shared.leave_engines]
  · rw [(step_target h).1 i hi']
    exact he i ((step_new h hi).resolve_right hi')

/-- What the trace says of the objects. -/
structure Logged (c : Config Shared Thread) : Prop where
  /-- An object was created, and not destroyed. -/
  created : ∀ i, (c.shared.engines i).alive = true →
    .created i (c.shared.engines i).address ∈ c.shared.trace ∧ .destroyed i ∉ c.shared.trace
  /-- What was destroyed was created. -/
  ended : ∀ i, .destroyed i ∈ c.shared.trace → i < c.shared.count
  /-- A closed engine was closed in the trace. -/
  closed : ∀ i, (c.shared.engines i).closing = true → .closed i ∈ c.shared.trace
  /-- A thread of a shutdown finds the engine closing. -/
  past : ∀ u ∈ c.threads, u.past = true → (c.shared.engines u.id).closing = true
  /-- Every empty slot has its reason. -/
  explained : ∀ i < c.shared.count, (c.shared.engines i).Explained

/-- What an event may say after what came before it. -/
def Answered (earlier : List Event) : Event → Prop
  | .read id handle => handle = lastBound id earlier ∧ (∃ address, .created id address ∈ earlier) ∧
      .destroyed id ∉ earlier
  | .refused id => .closed id ∈ earlier
  | _ => True

/-- What a step adds to the trace. -/
theorem step_trace (h : step s t ch = some (s', ts)) : s'.trace = s.trace ∨
    ∃ e, s'.trace = s.trace ++ [e] ∧ (∀ id, e = .destroyed id → t = .destroy id) := by
  cases step_kind h with
  | quiet _ htrace => exact .inl htrace
  | refuse _ _ _ htrace | close _ _ htrace => exact .inr ⟨_, htrace, nofun⟩
  | create _ _ _ => exact .inr ⟨_, rfl, nofun⟩
  | apply _ op => cases op <;> exact .inr ⟨_, rfl, nofun⟩
  | clear _ => exact .inl rfl
  | destroy id =>
    refine .inr ⟨_, rfl, fun k heq => ?_⟩
    cases heq
    rfl

theorem step_trace_mem (h : step s t ch = some (s', ts)) {e : Event} (he : e ∈ s.trace) :
    e ∈ s'.trace := by
  rcases step_trace h with heq | ⟨_, heq, -⟩ <;> rw [heq]
  · exact he
  · exact List.mem_append_left _ he

theorem step_destroyed (h : step s t ch = some (s', ts)) (hd : .destroyed i ∈ s'.trace) :
    .destroyed i ∈ s.trace ∨ t = .destroy i := by
  rcases step_trace h with heq | ⟨e, heq, hdestroy⟩ <;> rw [heq] at hd
  · exact .inl hd
  · rcases List.mem_append.mp hd with hd | hd
    · exact .inl hd
    · exact .inr (hdestroy i (List.mem_singleton.mp hd).symm)

/-- An object that is there was there, or is the one that was created. -/
theorem step_alive (h : step s t ch = some (s', ts)) (ha : (s'.engines i).alive = true) :
    (s.engines i).alive = true ∧ (s'.engines i).address = (s.engines i).address ∧
        t ≠ .destroy i ∨
      t = .app ∧ i = s.count ∧ .created i (s'.engines i).address ∈ s'.trace := by
  cases step_kind h with
  | quiet hc _ | refuse _ _ hc _ =>
    refine .inl ⟨(hc.engines i).2.1 ▸ ha, (hc.engines i).1, ?_⟩
    rintro rfl
    cases ch <;> cases h
    simp [Shared.update_engines] at ha
  | close _ hc _ => exact .inl ⟨(hc.engines i).2.1 ▸ ha, (hc.engines i).1, nofun⟩
  | create address _ _ =>
    simp only [Shared.update_engines] at ha ⊢
    by_cases hi : i = s.count
    · subst hi
      simp
    · rw [if_neg hi] at ha
      exact .inl ⟨ha, by rw [if_neg hi], nofun⟩
  | apply id op =>
    rw [Shared.apply_engines] at ha ⊢
    exact .inl ⟨ha, rfl, nofun⟩
  | clear id => exact .inl ⟨ha, rfl, nofun⟩
  | destroy id =>
    simp only [Shared.update_engines] at ha ⊢
    split at ha
    · contradiction
    · rename_i hi
      exact .inl ⟨ha, by rw [if_neg hi], fun heq => hi (Thread.destroy.inj heq).symm⟩

theorem logged_step {rest : Multiset Thread} (hb : Books ⟨s, t ::ₘ rest⟩)
    (h : step s t ch = some (s', ts)) (hl : Logged ⟨s, t ::ₘ rest⟩) : Logged ⟨s', ts + rest⟩ := by
  have ht := Multiset.mem_cons_self t rest
  have hknown : t = .app ∨ t.id < s.count := hb.known t ht
  have hcount : s.count ≤ s'.count := (step_count h).1
  constructor
  · intro i ha
    rcases step_alive h ha with ⟨ha, haddress, hne⟩ | ⟨rfl, rfl, hcreated⟩
    · obtain ⟨hcreated, hdestroyed⟩ := hl.created i ha
      refine ⟨?_, fun hd => (step_destroyed h hd).elim hdestroyed hne⟩
      change _ ∈ s'.trace
      rw [haddress]
      exact step_trace_mem h hcreated
    · refine ⟨hcreated, fun hd => ?_⟩
      rcases step_destroyed h hd with hd | heq
      · exact Nat.lt_irrefl _ (hl.ended _ hd)
      · contradiction
  · intro i hd
    rcases step_destroyed h hd with hd | rfl
    · exact Nat.lt_of_lt_of_le (hl.ended i hd) hcount
    · exact Nat.lt_of_lt_of_le (hknown.resolve_left nofun) hcount
  · intro i hc
    rcases (step_slot h).2.2 hc with hc | hc
    · exact step_trace_mem h (hl.closed i hc)
    · exact hc
  · refine forall_step hl.past (step_past h) fun u hu hpast hp => ?_
    have hknown := hb.known u (Multiset.mem_cons_of_mem hu)
    refine (step_slot h).2.1 (hknown.resolve_left ?_) (hpast hp)
    rintro rfl
    cases hp
  · exact fun i hi => step_explained h (hl.past t ht) (hb.user_le ht) hknown hl.explained hi

theorem answered_step {rest : Multiset Thread} (hb : Books ⟨s, t ::ₘ rest⟩)
    (ht : Table s) (hs : t.Sound s) (hl : Logged ⟨s, t ::ₘ rest⟩)
    (h : step s t ch = some (s', ts)) (hj : Trace.Justified Answered s.trace) :
    Trace.Justified Answered s'.trace := by
  cases step_kind h with
  | quiet _ htrace => exact htrace ▸ hj
  | refuse huser hwhy _ htrace =>
    rw [htrace]
    refine hj.append (hl.closed _ (hwhy.elim id fun hn => ?_))
    have hmem := Multiset.mem_cons_self t rest
    have hlt := (hb.known t hmem).resolve_left (by rintro rfl; cases huser)
    have hle := hb.user_le hmem
    obtain ⟨hempty, hidle⟩ := hl.explained _ hlt
    refine (hempty hn).resolve_left fun hd => ?_
    have hzero := hidle hd
    omega
  | close _ _ htrace =>
    rw [htrace]
    exact hj.append trivial
  | create _ _ _ => exact hj.append trivial
  | apply id op =>
    cases op with
    | bindToNetwork _ => exact hj.append trivial
    | boundNetwork =>
      obtain ⟨hcreated, hdestroyed⟩ :=
        hl.created id (Instance.alive_of_native (hb.spent_le id) hs)
      exact hj.append ⟨ht.kept id hs, ⟨_, hcreated⟩, hdestroyed⟩
  | clear _ => exact hj
  | destroy _ => exact hj.append trivial

/-- In every run. -/
def Running (c : Config Shared Thread) : Prop :=
  Reachable step (fun _ _ _ => True) start.config c

variable {c : Config Shared Thread}

/-- Everything at once. -/
structure Inv (c : Config Shared Thread) : Prop where
  /-- What the threads hold adds up. -/
  books : Books c
  /-- The table has the entries of the objects. -/
  table : Table c.shared
  /-- The threads stand where they can. -/
  sound : ∀ u ∈ c.threads, u.Sound c.shared
  /-- The trace says what became of the objects. -/
  logged : Logged c
  /-- Every answer was justified. -/
  answered : Trace.Justified Answered c.shared.trace

theorem inv_step {rest : Multiset Thread} (hi : Inv ⟨s, t ::ₘ rest⟩)
    (h : step s t ch = some (s', ts)) : Inv ⟨s', ts + rest⟩ := by
  have hs : t.Sound s := hi.sound t (Multiset.mem_cons_self t rest)
  constructor
  · exact books_step hi.books h
  · exact table_step hi.books hs h hi.table
  · exact forall_step hi.sound (step_sound h) fun u hu => sound_other hi.books hi.table hs h hu
  · exact logged_step hi.books h hi.logged
  · exact answered_step hi.books hi.table hs hi.logged h hi.answered

theorem inv_start : Inv start.config := by
  constructor
  · exact books_start
  · constructor
    · exact nofun
    · exact nofun
    · exact nofun
    · exact nofun
  · intro u hu
    obtain rfl := List.mem_singleton.mp (Multiset.mem_coe.mp hu)
    trivial
  · constructor
    · exact nofun
    · exact nofun
    · exact nofun
    · intro u hu
      obtain rfl := List.mem_singleton.mp (Multiset.mem_coe.mp hu)
      exact nofun
    · exact nofun
  · exact Trace.justified_nil

theorem inv_reachable (h : Running c) : Inv c := by
  refine Reachable.invariant inv_start ?_ h
  rintro _ _ - hi ⟨-, hn⟩
  exact inv_step hi hn

/-- **Every engine has its own network.** However engines are created, bound, shut down and
dropped, and whatever addresses they get: `bound_network` returns the handle of the last
`bind_to_network` on the engine since its creation, and is refused only after `shutdown`;
and every entry of the table is that of an engine that was not destroyed, with the handle
that this engine was bound to last. -/
theorem networks_kept (h : Running c) :
    Trace.Justified Answered c.shared.trace ∧
      ∀ address handle, (address, handle) ∈ c.shared.process.boundNetworks → ∃ id,
        .created id address ∈ c.shared.trace ∧ .destroyed id ∉ c.shared.trace ∧
          lastBound id c.shared.trace = handle := by
  have hi := inv_reachable h
  refine ⟨hi.answered, fun address handle hmem => ?_⟩
  obtain ⟨id, halive, rfl, hlast⟩ := hi.table.owned address handle hmem
  obtain ⟨hcreated, hdestroyed⟩ := hi.logged.created id halive
  exact ⟨id, hcreated, hdestroyed, hlast⟩

/-- The first engine is bound, shut down and destroyed, the second gets its address. -/
def addressUsedAgain : List (Thread × List Choice) :=
  let call := List.replicate 6 Choice.go
  [(.app, [.create 8]), (.app, [.call 0 (.bindToNetwork 7)]), (.load 0 (.bindToNetwork 7), call),
    (.app, [.call 0 .boundNetwork]), (.load 0 .boundNetwork, call), (.app, [.shutdown 0]),
    (.closeLock 0, List.replicate 9 .go), (.clear 0, List.replicate 3 .go), (.app, [.create 8]),
    (.app, [.call 1 .boundNetwork]), (.load 1 .boundNetwork, call),
    (.app, [.call 0 .boundNetwork]), (.load 0 .boundNetwork, [.go])]

/-- The second engine is not bound to the network of the first. -/
theorem networks_kept_reused :
    ∃ c, Running c ∧
      c.shared.trace = [.created 0 8, .bound 0 7, .read 0 7, .closed 0, .destroyed 0,
        .created 1 8, .read 1 (-1), .refused 0] ∧
      Trace.Justified Answered c.shared.trace ∧
      ∀ address handle, (address, handle) ∈ c.shared.process.boundNetworks → ∃ id,
        .created id address ∈ c.shared.trace ∧ .destroyed id ∉ c.shared.trace ∧
          lastBound id c.shared.trace = handle := by
  have hrun : Running (play step (fun _ _ _ => true) start addressUsedAgain).config :=
    play_reachable (fun _ _ _ _ => trivial) addressUsedAgain Reachable.start
  exact ⟨_, hrun, by decide +kernel, networks_kept hrun⟩

end TokioCronet.Networks
