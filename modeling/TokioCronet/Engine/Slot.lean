import TokioCronet.Engine.Admission

/-!
# The slot of the native engine

`native : Mutex<Option<NativeEngine>>` is emptied once, by the initialiser of a
shutdown or by the last drop. An admission counts its operation under the mutex and
after it has seen the slot full, so an empty slot means that nothing is live, and
nothing will be.
-/

namespace TokioCronet.Engine

open Pool

variable {κ : Type} {s s' : Shared} {t u : Thread κ} {ch : Choice κ} {ts : List (Thread κ)}

/-- The slot was seen full under the lock that is still held. -/
def Thread.counting : Thread κ → Bool
  | .beginCount _ => true
  | _ => false

/-- `NativeEngine::shutdown` is under way. -/
def Thread.tearing : Thread κ → Bool
  | .nativeStop _ | .nativeDestroy _ => true
  | _ => false

/-! ## What one step does to the slot -/

/-- The slot is emptied under the mutex, or once no reference is left. -/
theorem step_slot (h : step s t ch = some (s', ts)) :
    s'.native = s.native ∨ s'.active = s.active ∧ (t = .takeNative ∨ t = .dropInner) := by
  revert h
  fun_cases step s t ch <;> first | exact of_none | apply of_some
  all_goals
    first | exact .inl rfl | exact .inr ⟨rfl, .inl rfl⟩ | exact .inr ⟨rfl, .inr rfl⟩

theorem step_counting (h : step s t ch = some (s', ts)) (hu : u ∈ ts) (hc : u.counting = true) :
    s'.native = true := by
  revert h hu hc
  fun_cases step s t ch <;> first | exact of_none | (apply of_some; simp_all [Thread.counting])
  all_goals grind [Thread.counting]

theorem step_raises (h : step s t ch = some (s', ts)) (ht : t.counting = false) :
    s'.active ≤ s.active := by
  revert h ht
  fun_cases step s t ch <;> first | exact of_none | apply of_some
  all_goals
    intro ht
    first | exact le_refl _ | exact Nat.sub_le _ _ | cases ht

theorem step_tearing (h : step s t ch = some (s', ts)) (hu : u ∈ ts) (hc : u.tearing = true) :
    Event.nativeShutdown ∈ s'.trace ∨ t.tearing = true := by
  revert h hu hc
  fun_cases step s t ch <;> first | exact of_none | (apply of_some; simp_all [Thread.tearing])
  all_goals grind [Thread.tearing]

theorem step_destroyed (h : step s t ch = some (s', ts)) (hd : Event.destroyed ∈ s'.trace) :
    Event.destroyed ∈ s.trace ∨ t.tearing = true := by
  revert h hd
  fun_cases step s t ch <;> first | exact of_none | apply of_some
  all_goals
    intro hd
    simp_all [Thread.tearing]

theorem step_trace_mem (h : step s t ch = some (s', ts)) {e : Event} (he : e ∈ s.trace) :
    e ∈ s'.trace := by
  rcases step_trace h with heq | ⟨f, heq, -⟩
  · rw [heq]
    exact he
  · rw [heq]
    exact List.mem_append_left _ he

/-! ## The invariant -/

/-- What the slot says about the rest of the engine. -/
structure SlotInv (c : Config Shared (Thread κ)) : Prop where
  /-- An operation counts itself only while there is an engine. -/
  counting : ∀ t ∈ c.threads, t.counting = true → c.shared.native = true
  /-- Nothing is live without an engine. -/
  empty : c.shared.native = false → c.shared.active = 0
  /-- Who tears the engine down has shut it down. -/
  tearing : ∀ t ∈ c.threads, t.tearing = true → Event.nativeShutdown ∈ c.shared.trace
  /-- It is destroyed behind its shutdown. -/
  destroyed : Event.destroyed ∈ c.shared.trace → Event.nativeShutdown ∈ c.shared.trace

theorem slotInv_init : SlotInv (start (κ := κ)).config where
  counting := by simp [start, Listed.config, Thread.counting]
  empty := by simp [start, Listed.config]
  tearing := by simp [start, Listed.config, Thread.tearing]
  destroyed := by simp [start, Listed.config]

variable {allowed : Policy Shared (Thread κ) (Choice κ)} {c c' : Config Shared (Thread κ)}

/-- The two that empty the slot find nothing live. -/
theorem active_of_empties {rest : Multiset (Thread κ)} (ha : AdmissionInv ⟨s, t ::ₘ rest⟩)
    (ht : t = .takeNative ∨ t = .dropInner) : s.active = 0 := by
  have hsound := ha.sound t (Multiset.mem_cons_self t rest)
  rcases ht with rfl | rfl
  · exact hsound.active rfl
  · -- every operation holds a reference, and there is none
    have hzero : s.arcs = 0 := hsound.arcs rfl
    have harcs : s.arcs = total Thread.arcs (Thread.dropInner ::ₘ rest) := ha.arcs
    have hops : s.active = total Thread.operations (Thread.dropInner ::ₘ rest) := ha.operations
    have hle : total Thread.operations (Thread.dropInner ::ₘ rest) ≤
        total Thread.arcs (Thread.dropInner ::ₘ rest) :=
      total_le_total (fun t => by cases t <;> simp [Thread.operations, Thread.arcs])
    omega

/-- Nobody empties the slot while another counts. -/
theorem counting_other {rest : Multiset (Thread κ)} (ha : AdmissionInv ⟨s, t ::ₘ rest⟩)
    (hu : u ∈ rest) (hc : u.counting = true) (ht : t = .takeNative ∨ t = .dropInner) : False := by
  have hlocks : t.locks + u.locks ≤ s.nativeLock.toNat := by
    have := ha.locks
    simp only at this
    rw [this]
    exact add_le_total hu
  have harcs : t.arcs + u.arcs ≤ s.arcs := by
    have := ha.arcs
    simp only at this
    rw [this]
    exact add_le_total hu
  have hsound := ha.sound t (Multiset.mem_cons_self t rest)
  obtain ⟨k, rfl⟩ : ∃ k, u = .beginCount k := by
    cases u <;> simp_all [Thread.counting]
  have hle := Bool.toNat_le s.nativeLock
  rcases ht with rfl | rfl
  · simp only [Thread.locks] at hlocks
    omega
  · have hzero : s.arcs = 0 := hsound.arcs rfl
    simp only [Thread.arcs] at harcs
    omega

theorem slotInv_step (ha : AdmissionInv c) (hi : SlotInv c) (hs : Step step allowed c c') :
    SlotInv c' := by
  obtain ⟨_, hn⟩ := hs
  rename_i s s' t ts rest ch _
  have hself : t ∈ t ::ₘ rest := Multiset.mem_cons_self t rest
  refine ⟨?_, ?_, ?_, ?_⟩
  · refine forall_step hi.counting (fun _ u hu => step_counting hn hu) ?_
    intro u hu hold hc
    rcases step_slot hn with heq | ⟨-, hempties⟩
    · exact heq.trans (hold hc)
    · exact (counting_other ha hu hc hempties).elim
  · intro hempty
    rcases step_slot hn with heq | ⟨heq, hempties⟩
    · have hzero : s.active = 0 := hi.empty (heq ▸ hempty)
      have hquiet : t.counting = false := by
        by_contra hc
        have hfull := hi.counting t hself (by simpa using hc)
        simp only at hfull hempty
        rw [heq, hfull] at hempty
        cases hempty
      have := step_raises hn hquiet
      change s'.active = 0
      omega
    · exact heq.trans (active_of_empties ha hempties)
  · refine forall_step hi.tearing ?_ ?_
    · intro ht u hu hc
      rcases step_tearing hn hu hc with hmem | htearing
      · exact hmem
      · exact step_trace_mem hn (ht htearing)
    · intro u _ hold hc
      exact step_trace_mem hn (hold hc)
  · intro hd
    rcases step_destroyed hn hd with hold | htearing
    · exact step_trace_mem hn (hi.destroyed hold)
    · exact step_trace_mem hn (hi.tearing t hself htearing)

theorem slotInv_reachable (h : Reachable step allowed start.config c) : SlotInv c :=
  h.invariant slotInv_init (fun hr hi hs => slotInv_step (admissionInv_reachable hr) hi hs)

/-- **Once the engine is being torn down no operation is live.** -/
theorem active_of_nativeShutdown (h : Reachable step allowed start.config c)
    (hd : Event.nativeShutdown ∈ c.shared.trace) :
    c.shared.native = false ∧ c.shared.active = 0 := by
  have howns := (admissionInv_reachable h).owns
  have hpos : 0 < c.shared.trace.count .nativeShutdown := List.count_pos_iff.mpr hd
  have hempty : c.shared.native = false := by
    cases hn : c.shared.native
    · rfl
    · rw [hn] at howns
      simp only [Bool.toNat_true] at howns
      omega
  exact ⟨hempty, (slotInv_reachable h).empty hempty⟩

end TokioCronet.Engine
