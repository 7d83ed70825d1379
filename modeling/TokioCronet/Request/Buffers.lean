import TokioCronet.Request.Destruction
import TokioCronet.Request.Transfer

/-!
# The read buffer

A request creates one native buffer and passes it back and forth: `Read` gives it
to Cronet, `on_read_completed` brings it back, and `CallbackState::buffer` is the
application's record that it must destroy it. The record is cleared only after
`Read` has returned. A completion that overtakes the clearing records the buffer
first and loses its record afterwards; without such an overtaking the record is
right whenever `NativeRequest` is dropped.
-/

namespace TokioCronet.Request

open Pool

variable {cfg : Settings} {s s' : Shared} {t u : Thread} {ch : Choice} {ts : List Thread}

/-! ## The invariant -/

theorem control_holding {p : Control} {hold : Hold} {b : BufferId}
    (h : (Thread.control p).holding = some (hold, b)) : hold = .held := by
  cases p with
  | lock op | raw op | done op | call op =>
    cases op <;> cases h
    rfl
  | _ => cases h

/-- A `Read` that has been accepted. -/
theorem clearing_read {b : BufferId} (h : t.holding = some (.clearing, b)) :
    ∃ site code, t = .read (.returned site b code) := by
  cases t with
  | runnable stage r => cases stage <;> cases r <;> cases h
  | callback p => cases p <;> cases h
  | control p => cases control_holding h
  | read p =>
    cases p with
    | returned site b' code =>
      rw [Thread.holding] at h
      split at h <;> cases h
      exact ⟨site, code, rfl⟩
    | _ => cases h
  | task p => cases p <;> cases h
  | _ => cases h

theorem fresh_callbacks {b : BufferId} (h : t.holding = some (.fresh, b)) :
    t.callbacks = 1 ∧ t.token = 1 := by
  cases t with
  | runnable stage r =>
    cases stage <;> cases r <;> cases h
    exact ⟨rfl, rfl⟩
  | callback p => cases p <;> cases h <;> exact ⟨rfl, rfl⟩
  | control p => cases control_holding h
  | read p =>
    cases p with
    | returned site b code =>
      rw [Thread.holding] at h
      split at h <;> cases h
    | _ => cases h
  | task p => cases p <;> cases h
  | _ => cases h

theorem held_token {b : BufferId} (h : t.holding = some (.held, b)) : t.token = 1 := by
  cases t with
  | runnable stage r => cases stage <;> cases r <;> cases h
  | callback p => cases p <;> cases h <;> rfl
  | control p =>
    cases p with
    | lock op | raw op | done op | call op =>
      cases op <;> cases h
      rfl
    | _ => cases h
  | read p =>
    cases p with
    | call site b => rfl
    | returned site b code =>
      rw [Thread.holding] at h
      split at h <;> cases h
    | _ => cases h
  | task p =>
    cases p <;> cases h
    rfl
  | _ => cases h

/-- Who owns the buffer, and what the record says of it. -/
structure BufferInv (c : Config Shared Thread) : Prop where
  /-- One thread at most comes to the next `Read`. -/
  token : (!c.shared.native.responded).toNat + c.shared.native.reading.isSome.toNat +
    total Thread.token c.threads ≤ 1
  /-- One buffer at most is created. -/
  birth : c.shared.native.buffers.length + (!c.shared.native.responded).toNat +
    total Thread.birth c.threads ≤ 1
  /-- `NativeRequest` is dropped once. -/
  dropping : total Thread.dropping c.threads ≤ 1
  /-- Before Cronet is asked for anything there is no buffer. -/
  early : c.shared.native.submitted = false → c.shared.native.buffers = []
  /-- Without a drop the request was not started, or is destroyed. -/
  gone : total Thread.dropping c.threads = 0 →
    c.shared.native.Silent ∨ .destroy ∈ c.shared.trace
  /-- A buffer that is brought is the application's. -/
  fresh : ∀ t ∈ c.threads, ∀ b, t.holding = some (.fresh, b) →
    c.shared.native.buffers[b]? = some .app
  /-- A buffer that is held is too, until the request is destroyed. -/
  held : ∀ t ∈ c.threads, ∀ b, t.holding = some (.held, b) →
    c.shared.native.buffers[b]? = some .app ∨ .destroy ∈ c.shared.trace
  /-- What the application owns is recorded, or about to be. -/
  recorded : ∀ b, c.shared.native.buffers[b]? = some .app →
    c.shared.context.state.buffer = some b ∨ ∃ t ∈ c.threads, t.holding = some (.fresh, b)
  /-- What is recorded is the application's, or about to be struck off. -/
  owned : ∀ b, c.shared.context.state.buffer = some b →
    c.shared.native.buffers[b]? = some .app ∨
    (∃ t ∈ c.threads, t.holding = some (.clearing, b)) ∨ total Thread.dropping c.threads = 0
  /-- Behind the drop no buffer is the application's. -/
  released : total Thread.dropping c.threads = 0 →
    ∀ b : BufferId, ¬ c.shared.native.buffers[b]? = some .app
  /-- A buffer is destroyed once. -/
  destroyed : ∀ b, c.shared.trace.count (.bufferDestroyed b) =
    if c.shared.native.buffers[b]? = some .freed then 1 else 0

theorem bufferInv_init : BufferInv start.config where
  token := by simp [start, Listed.config, Thread.token]
  birth := by simp [start, Listed.config, Thread.birth]
  dropping := by simp [start, Listed.config, Thread.dropping, Thread.owner]
  early := by simp [start, Listed.config]
  gone := by simp [start, Listed.config, Thread.dropping, Thread.owner]
  fresh := by simp [start, Listed.config, Thread.holding]
  held := by simp [start, Listed.config, Thread.holding]
  recorded := by simp [start, Listed.config]
  owned := by simp [start, Listed.config]
  released := by simp [start, Listed.config]
  destroyed := by simp [start, Listed.config]

/-- Cronet completes a read only with a buffer it still owns. -/
def HandsBack : Policy Shared Thread Choice := fun c t ch =>
  ∀ b n content, t = .runnable .running (.readCompleted b n content) → ch = .go →
    c.shared.native.buffers[b]? = some .cronet

/-- When an accepted `Read` strikes its buffer off the record, the application has
not got the buffer back, or has it still to record. -/
def ClearsInTime : Policy Shared Thread Choice := fun c t _ =>
  ∀ b, t.holding = some (.clearing, b) → c.shared.native.buffers[b]? = some .app →
    ∃ u ∈ c.threads, u.holding = some (.fresh, b)

section Step

variable {rest : Multiset Thread}

/-- Where a buffer is the application's after a step. -/
theorem Transfer.app {b : BufferId} (htr : Transfer s t ch s' ts)
    (h : s.native.buffers[b]? = some .app) (hread : ∀ site, t ≠ .read (.call site b))
    (hdrop : t.dropsBuffer = true → s.context.state.buffer ≠ some b) :
    s'.native.buffers[b]? = some .app := by
  have hlt : b < s.native.buffers.length := (List.getElem?_eq_some_iff.mp h).1
  cases htr with
  | kept hbuffers => rw [hbuffers]; exact h
  | created _ hbuffers => rw [hbuffers, List.getElem?_append_left hlt]; exact h
  | begun b' n content _ _ hbuffers =>
    rw [hbuffers, List.getElem?_set]
    split
    · simp_all
    · exact h
  | recorded b' _ _ hbuffers => rw [hbuffers]; exact h
  | read site b' ht hbuffers =>
    rw [hbuffers, List.getElem?_set_ne ?_]
    · exact h
    · rintro rfl
      exact hread site ht
  | cleared b' _ hbuffers => rw [hbuffers]; exact h
  | freed b' _ howned hbuffers =>
    rw [hbuffers, List.getElem?_set_ne ?_]
    · exact h
    · rintro rfl
      rw [h] at howned
      cases howned
  | dropped why b' ht hrecord hbuffers =>
    rw [hbuffers, List.getElem?_set_ne ?_]
    · exact h
    · rintro rfl
      refine hdrop ?_ hrecord
      rw [ht]
      rfl

/-- What the step of `t` may rely on in the rest of the pool. -/
structure Footing (s : Shared) (t : Thread) (ch : Choice) (rest : Multiset Thread) : Prop where
  /-- Who has the right to read has it alone. -/
  alone : t.token = 1 → ∀ u ∈ rest, u.token = 0
  /-- A buffer that is brought belongs to a request that is not destroyed. -/
  leased : ∀ u ∈ t ::ₘ rest, ∀ b, u.holding = some (.fresh, b) → .destroy ∉ s.trace
  /-- `Read` is called on a request that is not destroyed. -/
  reading : ∀ site b, t = .read (.call site b) → .destroy ∉ s.trace
  /-- The buffer is dropped behind the request, and nobody is about to forget it. -/
  dropping : t.dropsBuffer = true →
    .destroy ∈ s.trace ∧ ∀ u ∈ t ::ₘ rest, ∀ b, u.holding ≠ some (.clearing, b)
  /-- A completion hands back a buffer that was Cronet's. -/
  back : ∀ b n content, t = .runnable .running (.readCompleted b n content) → ch = .go →
    s.native.buffers[b]? = some .cronet
  /-- A buffer that is to be forgotten and is back is brought by a completion. -/
  clears : ∀ b, t.holding = some (.clearing, b) → s.native.buffers[b]? = some .app →
    ∃ u ∈ t ::ₘ rest, u.holding = some (.fresh, b)
  /-- A callback that runs belongs to a request that was asked for something and is not
  destroyed. -/
  active : t = .callback .allocate ∨ (∃ r, t = .runnable .running r ∧ r.leases = true) ∧ ch = .go →
    s.native.submitted = true ∧ .destroy ∉ s.trace

/-- The buffer of a new `fresh` thread is the application's. -/
theorem BufferInv.fresh_next (hb : BufferInv ⟨s, t ::ₘ rest⟩) (hf : Footing s t ch rest)
    (htr : Transfer s t ch s' ts) {b : BufferId} (hu : u ∈ ts)
    (hub : u.holding = some (.fresh, b)) : s'.native.buffers[b]? = some .app := by
  cases htr with
  | kept hbuffers _ _ hholding =>
    rcases hholding u hu with hnone | heq
    · rw [hnone] at hub
      cases hub
    · rw [hbuffers]
      exact hb.fresh t (Multiset.mem_cons_self t rest) b (heq ▸ hub)
  | created _ hbuffers _ _ hnext =>
    rw [hnext, List.mem_singleton] at hu
    subst hu
    cases hub
    rw [hbuffers, List.getElem?_concat_length]
  | begun b' n content ht hgo hbuffers _ _ hnext =>
    rw [hnext, List.mem_singleton] at hu
    subst hu
    cases hub
    have hlt := (List.getElem?_eq_some_iff.mp (hf.back b n content ht hgo)).1
    rw [hbuffers, List.getElem?_set_self hlt]
  | recorded b' _ _ _ _ _ hnext | read site b' _ _ _ _ hnext =>
    obtain ⟨v, rfl, hv⟩ := hnext
    rw [List.mem_singleton] at hu
    rw [hu, hv] at hub
    cases hub
  | cleared b' _ _ _ _ hnext =>
    rw [hnext u hu] at hub
    cases hub
  | freed b' _ _ _ _ _ hnext | dropped why b' _ _ _ _ _ hnext =>
    rw [hnext, List.mem_singleton] at hu
    rw [hu] at hub
    cases hub

theorem BufferInv.fresh_step (hb : BufferInv ⟨s, t ::ₘ rest⟩) (hf : Footing s t ch rest)
    (htr : Transfer s t ch s' ts) : ∀ u ∈ (ts : Multiset Thread) + rest, ∀ b,
      u.holding = some (.fresh, b) → s'.native.buffers[b]? = some .app := by
  refine forall_step hb.fresh (fun _ u hu b hub => hb.fresh_next hf htr hu hub) ?_
  intro u hu happ b hub
  refine htr.app (happ b hub) ?_ ?_
  · rintro site rfl
    have hzero := hf.alone rfl u hu
    rw [(fresh_callbacks hub).2] at hzero
    contradiction
  · intro hd
    exact absurd (hf.dropping hd).1 (hf.leased u (Multiset.mem_cons_of_mem hu) b hub)

/-- A new `held` thread held its buffer before, or has just recorded it. -/
theorem Transfer.held_next {b : BufferId} (htr : Transfer s t ch s' ts) (hu : u ∈ ts)
    (hub : u.holding = some (.held, b)) : s'.native.buffers = s.native.buffers ∧
      (t.holding = some (.held, b) ∨ t.holding = some (.fresh, b)) := by
  cases htr with
  | kept hbuffers _ _ hholding =>
    rcases hholding u hu with hnone | heq
    · rw [hnone] at hub
      cases hub
    · exact ⟨hbuffers, .inl (heq ▸ hub)⟩
  | created _ _ _ _ hnext | begun b' n content _ _ _ _ _ hnext | freed b' _ _ _ _ _ hnext
  | dropped why b' _ _ _ _ _ hnext =>
    rw [hnext, List.mem_singleton] at hu
    rw [hu] at hub
    cases hub
  | recorded b' ht _ hbuffers _ _ hnext =>
    obtain ⟨v, rfl, hv⟩ := hnext
    rw [List.mem_singleton] at hu
    rw [hu, hv] at hub
    cases hub
    exact ⟨hbuffers, .inr ht⟩
  | read site b' _ _ _ _ hnext =>
    obtain ⟨v, rfl, hv⟩ := hnext
    rw [List.mem_singleton] at hu
    rw [hu, hv] at hub
    cases hub
  | cleared b' _ _ _ _ hnext =>
    rw [hnext u hu] at hub
    cases hub

theorem BufferInv.held_step (hb : BufferInv ⟨s, t ::ₘ rest⟩) (hf : Footing s t ch rest)
    (htr : Transfer s t ch s' ts) (htrace : s.trace ⊆ s'.trace) :
    ∀ u ∈ (ts : Multiset Thread) + rest, ∀ b, u.holding = some (.held, b) →
      s'.native.buffers[b]? = some .app ∨ .destroy ∈ s'.trace := by
  have hmem : t ∈ t ::ₘ rest := Multiset.mem_cons_self t rest
  refine forall_step hb.held ?_ ?_
  · intro ht u hu b hub
    obtain ⟨hbuffers, hheld | hfresh⟩ := htr.held_next hu hub
    · rcases ht b hheld with happ | hd
      · rw [hbuffers]
        exact .inl happ
      · exact .inr (htrace hd)
    · rw [hbuffers]
      exact .inl (hb.fresh t hmem b hfresh)
  · intro u hu hheld b hub
    rcases hheld b hub with happ | hd
    · by_cases hdrop : t.dropsBuffer = true
      · exact .inr (htrace (hf.dropping hdrop).1)
      · refine .inl (htr.app happ ?_ (fun h => absurd h hdrop))
        rintro site rfl
        have hzero := hf.alone rfl u hu
        rw [held_token hub] at hzero
        contradiction
    · exact .inr (htrace hd)

/-- A thread that does not move keeps its hold. -/
theorem holding_stays {hold : Hold} {b : BufferId}
    (h : ∃ u ∈ t ::ₘ rest, u.holding = some (hold, b)) (ht : t.holding ≠ some (hold, b)) :
    ∃ u ∈ (ts : Multiset Thread) + rest, u.holding = some (hold, b) := by
  obtain ⟨u, hu, hub⟩ := h
  rcases Multiset.mem_cons.mp hu with rfl | hu
  · contradiction
  · exact ⟨u, Multiset.mem_add.mpr (.inr hu), hub⟩

theorem app_of_set {l : List Owner} {b b' : BufferId} {o : Owner} (ho : o ≠ .app)
    (h : (l.set b' o)[b]? = some .app) : b' ≠ b ∧ l[b]? = some .app := by
  rw [List.getElem?_set] at h
  split at h
  · split at h
    · exact absurd (Option.some.inj h) ho
    · cases h
  · exact ⟨‹_›, h⟩

theorem BufferInv.recorded_step (hb : BufferInv ⟨s, t ::ₘ rest⟩) (hf : Footing s t ch rest)
    (htr : Transfer s t ch s' ts) (b : BufferId) (happ : s'.native.buffers[b]? = some .app) :
    s'.context.state.buffer = some b ∨
      ∃ u ∈ (ts : Multiset Thread) + rest, u.holding = some (.fresh, b) := by
  have hmem : t ∈ t ::ₘ rest := Multiset.mem_cons_self t rest
  -- what was recorded before, when `t` does not touch the record
  have hold : s.native.buffers[b]? = some .app → t.holding ≠ some (.fresh, b) →
      s'.context.state.buffer = s.context.state.buffer → s'.context.state.buffer = some b ∨
      ∃ u ∈ (ts : Multiset Thread) + rest, u.holding = some (.fresh, b) := by
    intro happ ht hrecord
    rcases hb.recorded b happ with hrec | hfresh
    · exact .inl (hrecord.trans hrec)
    · exact .inr (holding_stays hfresh ht)
  cases htr with
  | kept hbuffers hrecord _ _ hfresh =>
    rw [hbuffers] at happ
    by_cases ht : t.holding = some (.fresh, b)
    · obtain ⟨u, hu, hub⟩ := hfresh b ht
      exact .inr ⟨u, Multiset.mem_add.mpr (.inl (Multiset.mem_coe.mpr hu)), hub⟩
    · exact hold happ ht hrecord
  | created ht hbuffers hrecord _ hnext =>
    rw [hbuffers] at happ
    rcases Nat.lt_or_ge b s.native.buffers.length with hlt | hge
    · rw [List.getElem?_append_left hlt] at happ
      refine hold happ ?_ hrecord
      rw [ht]
      nofun
    · have hlt := (List.getElem?_eq_some_iff.mp happ).1
      rw [List.length_append, List.length_singleton] at hlt
      cases Nat.le_antisymm (Nat.le_of_lt_succ hlt) hge
      rw [hnext]
      exact .inr ⟨_, Multiset.mem_add.mpr (.inl (List.mem_singleton_self _)), rfl⟩
  | begun b' n content ht hgo hbuffers hrecord _ hnext =>
    by_cases heq : b' = b
    · subst heq
      rw [hnext]
      exact .inr ⟨_, Multiset.mem_add.mpr (.inl (List.mem_singleton_self _)), rfl⟩
    · rw [hbuffers, List.getElem?_set_ne heq] at happ
      refine hold happ ?_ hrecord
      rw [ht]
      nofun
  | recorded b' ht _ hbuffers hrecord =>
    -- there is only one buffer
    have hlt' := (List.getElem?_eq_some_iff.mp (hb.fresh t hmem b' ht)).1
    have hlt := (List.getElem?_eq_some_iff.mp happ).1
    have hbirth := hb.birth
    rw [hbuffers] at hlt
    have hone : s.native.buffers.length ≤ 1 := by
      have hbirth : s.native.buffers.length + (!s.native.responded).toNat +
          total Thread.birth (t ::ₘ rest) ≤ 1 := hb.birth
      omega
    have hzero := Nat.lt_one_iff.mp (hlt.trans_le hone)
    have hzero' := Nat.lt_one_iff.mp (hlt'.trans_le hone)
    rw [hrecord, hzero, hzero']
    exact .inl rfl
  | read site b' ht hbuffers hrecord =>
    rw [hbuffers] at happ
    refine hold (app_of_set (by decide) happ).2 ?_ hrecord
    rw [ht]
    nofun
  | cleared b' ht hbuffers hrecord =>
    rw [hbuffers] at happ
    have hne : t.holding ≠ some (.fresh, b) := by
      rw [ht]
      nofun
    by_cases heq : b' = b
    · subst heq
      exact .inr (holding_stays (hf.clears b' ht happ) hne)
    · rcases hb.recorded b happ with hrec | hfresh
      · have hkeep : s.context.state.forget b' = s.context.state := by
          refine if_neg ?_
          rw [hrec]
          exact fun h => heq (Option.some.inj h).symm
        rw [hrecord, hkeep]
        exact .inl hrec
      · exact .inr (holding_stays hfresh hne)
  | freed b' ht _ hbuffers hrecord =>
    rw [hbuffers] at happ
    refine hold (app_of_set (by decide) happ).2 ?_ hrecord
    rw [ht]
    nofun
  | dropped why b' ht _ hbuffers hrecord =>
    rw [hbuffers] at happ
    refine hold (app_of_set (by decide) happ).2 ?_ hrecord
    rw [ht]
    nofun

theorem BufferInv.owned_step (hb : BufferInv ⟨s, t ::ₘ rest⟩) (hf : Footing s t ch rest)
    (htr : Transfer s t ch s' ts)
    (hdropping : total Thread.dropping ((ts : Multiset Thread) + rest) ≤
      total Thread.dropping (t ::ₘ rest)) (b : BufferId)
    (hrecord : s'.context.state.buffer = some b) :
    s'.native.buffers[b]? = some .app ∨
    (∃ u ∈ (ts : Multiset Thread) + rest, u.holding = some (.clearing, b)) ∨
    total Thread.dropping ((ts : Multiset Thread) + rest) = 0 := by
  have hmem : t ∈ t ::ₘ rest := Multiset.mem_cons_self t rest
  -- what was owned before, when `t` takes the buffer from nobody
  have hold : s.context.state.buffer = some b → t.holding ≠ some (.clearing, b) →
      (∀ site, t ≠ .read (.call site b)) → t.dropsBuffer = false →
      s'.native.buffers[b]? = some .app ∨
      (∃ u ∈ (ts : Multiset Thread) + rest, u.holding = some (.clearing, b)) ∨
      total Thread.dropping ((ts : Multiset Thread) + rest) = 0 := by
    intro hrec hclear hread hdrop
    rcases hb.owned b hrec with happ | hclearing | hgone
    · refine .inl (htr.app happ hread ?_)
      rw [hdrop]
      nofun
    · exact .inr (.inl (holding_stays hclearing hclear))
    · exact .inr (.inr (Nat.le_zero.mp (hdropping.trans (le_of_eq hgone))))
  cases htr with
  | kept hbuffers hrec _ _ _ hclear hdrop =>
    rw [hrec] at hrecord
    rcases hb.owned b hrecord with happ | hclearing | hgone
    · rw [hbuffers]
      exact .inl happ
    · exact .inr (.inl (holding_stays hclearing (hclear b)))
    · exact .inr (.inr (Nat.le_zero.mp (hdropping.trans (le_of_eq hgone))))
  | created ht _ hrec =>
    rw [hrec] at hrecord
    subst ht
    exact hold hrecord nofun nofun rfl
  | begun b' n content ht hgo _ hrec =>
    rw [hrec] at hrecord
    subst ht
    exact hold hrecord nofun nofun rfl
  | recorded b' ht _ hbuffers hrec =>
    rw [hrec] at hrecord
    cases hrecord
    rw [hbuffers]
    exact .inl (hb.fresh t hmem b ht)
  | read site b' ht hbuffers hrec _ hnext =>
    rw [hrec] at hrecord
    by_cases heq : b' = b
    · subst heq
      obtain ⟨u, rfl, hub⟩ := hnext
      exact .inr (.inl ⟨u, Multiset.mem_add.mpr (.inl (List.mem_singleton_self u)), hub⟩)
    · subst ht
      refine hold hrecord nofun ?_ rfl
      rintro site' ⟨⟩
      contradiction
  | cleared b' ht hbuffers hrec =>
    rw [hrec, CallbackState.forget] at hrecord
    split at hrecord
    · cases hrecord
    · obtain ⟨site, code, rfl⟩ := clearing_read ht
      refine hold hrecord ?_ nofun rfl
      intro hclear
      rw [ht] at hclear
      cases hclear
      contradiction
  | freed b' ht _ hbuffers hrec =>
    rw [hrec] at hrecord
    subst ht
    exact hold hrecord nofun nofun rfl
  | dropped why b' ht _ hbuffers hrec _ hnext =>
    -- the drop is over
    have hone : total Thread.dropping (t ::ₘ rest) ≤ 1 := hb.dropping
    rw [total_cons, ht] at hone
    have hrest : total Thread.dropping rest = 0 := Nat.le_zero.mp (Nat.le_of_add_le_add_left hone)
    rw [total_add, hrest, hnext]
    exact .inr (.inr rfl)

theorem BufferInv.early_step (hb : BufferInv ⟨s, t ::ₘ rest⟩) (hf : Footing s t ch rest)
    (htr : Transfer s t ch s' ts) (hsub : s.native.submitted = false) :
    s'.native.buffers = [] := by
  have hnil := hb.early hsub
  simp only at hnil
  have hactive : t = .callback .allocate ∨
      (∃ r, t = .runnable .running r ∧ r.leases = true) ∧ ch = .go → False := by
    intro h
    rw [(hf.active h).1] at hsub
    contradiction
  cases htr with
  | kept hbuffers | recorded _ _ _ hbuffers | cleared _ _ hbuffers => rw [hbuffers, hnil]
  | created ht => exact (hactive (.inl ht)).elim
  | begun b n content ht hgo => exact (hactive (.inr ⟨⟨_, ht, rfl⟩, hgo⟩)).elim
  | read _ _ _ hbuffers | freed _ _ _ hbuffers | dropped _ _ _ _ hbuffers =>
    rw [hbuffers, hnil, List.set_nil]

/-- A buffer that becomes the application's does so in a callback. -/
theorem Transfer.app_before {b : BufferId} (hf : Footing s t ch rest)
    (htr : Transfer s t ch s' ts) (happ : s'.native.buffers[b]? = some .app)
    (hnone : s.native.submitted = false ∨ .destroy ∈ s.trace) :
    s.native.buffers[b]? = some .app := by
  have hactive : t = .callback .allocate ∨
      (∃ r, t = .runnable .running r ∧ r.leases = true) ∧ ch = .go → False := by
    intro h
    obtain ⟨hsub, hd⟩ := hf.active h
    rcases hnone with hnone | hnone
    · rw [hsub] at hnone
      contradiction
    · contradiction
  cases htr with
  | kept hbuffers | recorded _ _ _ hbuffers | cleared _ _ hbuffers =>
    rw [hbuffers] at happ
    exact happ
  | created ht => exact (hactive (.inl ht)).elim
  | begun b n content ht hgo => exact (hactive (.inr ⟨⟨_, ht, rfl⟩, hgo⟩)).elim
  | read _ _ _ hbuffers | freed _ _ _ hbuffers | dropped _ _ _ _ hbuffers =>
    rw [hbuffers] at happ
    exact (app_of_set (by decide) happ).2

/-- The drop of the buffer leaves none behind. -/
theorem BufferInv.released_drop (hb : BufferInv ⟨s, t ::ₘ rest⟩) (hf : Footing s t ch rest)
    (htr : Transfer s t ch s' ts) (ht : t.dropsBuffer = true) (b : BufferId) :
    ¬ s'.native.buffers[b]? = some .app := by
  intro happ
  have hd := (hf.dropping ht).1
  have hrecord : s.context.state.buffer = some b := by
    rcases hb.recorded b (htr.app_before hf happ (.inr hd)) with hrec | ⟨u, hu, hub⟩
    · exact hrec
    · exact absurd hd (hf.leased u hu b hub)
  cases htr with
  | kept _ _ _ _ _ _ hdrop =>
    rw [hdrop ht] at hrecord
    cases hrecord
  | dropped why b' _ hrec hbuffers =>
    rw [hrec] at hrecord
    cases hrecord
    rw [hbuffers] at happ
    exact (app_of_set (by decide) happ).1 rfl
  | recorded b' hfresh => exact hf.leased t (Multiset.mem_cons_self t rest) b' hfresh hd
  | cleared b' hclear => exact (hf.dropping ht).2 t (Multiset.mem_cons_self t rest) b' hclear
  | created hthread | begun _ _ _ hthread | read _ _ hthread | freed _ hthread =>
    rw [hthread] at ht
    cases ht

theorem freed_set {l : List Owner} {b b' : BufferId} {o o' : Owner} (hb : l[b']? = some o)
    (ho : o ≠ .freed) (ho' : o' ≠ .freed) :
    (l.set b' o')[b]? = some .freed ↔ l[b]? = some .freed := by
  rw [List.getElem?_set]
  split
  · rename_i heq
    subst heq
    rw [if_pos (List.getElem?_eq_some_iff.mp hb).1, hb]
    simp [ho, ho']
  · rfl

/-- A buffer that is not freed has not been destroyed, and is then destroyed once. -/
theorem destroyed_set {l : List Owner} {tr : List Event} {b' : BufferId} {o : Owner}
    (hcount : ∀ b, tr.count (.bufferDestroyed b) = if l[b]? = some .freed then 1 else 0)
    (hb : l[b']? = some o) (ho : o ≠ .freed) (b : BufferId) :
    (tr ++ [Event.bufferDestroyed b']).count (.bufferDestroyed b) =
      if (l.set b' .freed)[b]? = some .freed then 1 else 0 := by
  have hlt := (List.getElem?_eq_some_iff.mp hb).1
  by_cases heq : b' = b
  · subst heq
    rw [List.count_append, hcount, List.getElem?_set_self hlt, hb, if_neg (by simpa using ho)]
    simp
  · have hne : Event.bufferDestroyed b ≠ .bufferDestroyed b' := by
      rintro ⟨⟩
      contradiction
    rw [count_keep hne, hcount, List.getElem?_set_ne heq]

theorem BufferInv.destroyed_step (hb : BufferInv ⟨s, t ::ₘ rest⟩) (hf : Footing s t ch rest)
    (htr : Transfer s t ch s' ts) (b : BufferId) : s'.trace.count (.bufferDestroyed b) =
      if s'.native.buffers[b]? = some .freed then 1 else 0 := by
  have hmem : t ∈ t ::ₘ rest := Multiset.mem_cons_self t rest
  have hcount : ∀ b, s.trace.count (.bufferDestroyed b) =
      if s.native.buffers[b]? = some .freed then 1 else 0 := hb.destroyed
  cases htr with
  | kept hbuffers _ hd | recorded _ _ _ hbuffers _ hd | cleared _ _ hbuffers _ hd =>
    rw [hd, hbuffers]
    exact hcount b
  | created _ hbuffers _ hd =>
    have hiff : (s.native.buffers ++ [.app])[b]? = some .freed ↔
        s.native.buffers[b]? = some .freed := by
      rw [List.getElem?_append]
      split
      · rfl
      · rename_i hge
        rw [List.getElem?_eq_none (Nat.le_of_not_lt hge)]
        cases b - s.native.buffers.length <;> simp
    rw [hd, hbuffers, hcount]
    simp only [hiff]
  | begun b' n content ht hgo hbuffers _ hd =>
    rw [hd, hbuffers, hcount]
    simp only [freed_set (hf.back b' n content ht hgo) (by decide : Owner.cronet ≠ .freed)
      (by decide : Owner.app ≠ .freed)]
  | read site b' ht hbuffers _ hd =>
    have happ : s.native.buffers[b']? = some .app := by
      rcases hb.held t hmem b' (by rw [ht]; rfl) with happ | hdestroy
      · exact happ
      · exact absurd hdestroy (hf.reading site b' ht)
    rw [hd, hbuffers, hcount]
    simp only [freed_set happ (by decide : Owner.app ≠ .freed)
      (by decide : Owner.cronet ≠ .freed)]
  | freed b' _ hcronet hbuffers _ hd =>
    rw [hd, hbuffers]
    exact destroyed_set hcount hcronet (by decide) b
  | dropped why b' ht hrec hbuffers _ hd =>
    have happ : s.native.buffers[b']? = some .app := by
      rcases hb.owned b' hrec with happ | ⟨u, hu, hub⟩ | hgone
      · exact happ
      · exact absurd hub ((hf.dropping (by rw [ht]; rfl)).2 u hu b')
      · have hle : t.dropping ≤ total Thread.dropping (t ::ₘ rest) := le_total hmem
        have hzero : total Thread.dropping (t ::ₘ rest) = 0 := hgone
        rw [hzero, ht] at hle
        contradiction
    rw [hd, hbuffers]
    exact destroyed_set hcount happ (by decide) b

theorem dropping_le (rest : Multiset Thread) (h : step cfg s t ch = some (s', ts)) :
    total Thread.dropping ((ts : Multiset Thread) + rest) ≤
      total Thread.dropping (t ::ₘ rest) := by
  have hle : (ts.map Thread.dropping).sum ≤ t.dropping := by
    rcases step_dropping h with heq | ⟨heq, _⟩ <;> omega
  rw [total_add, total_coe, total_cons]
  omega

theorem owner_le_dropping (t : Thread) : t.owner ≤ t.dropping := by
  cases t with
  | cleanup p => cases p <;> exact Nat.le_of_ble_eq_true rfl
  | _ => exact le_rfl

/-- Who drops nothing any more has no runnable left, or the request was destroyed. -/
theorem BufferInv.gone_step (hb : BufferInv ⟨s, t ::ₘ rest⟩) (hi : LifetimeInv ⟨s, t ::ₘ rest⟩)
    (h : step cfg s t ch = some (s', ts))
    (hzero : total Thread.dropping ((ts : Multiset Thread) + rest) = 0) :
    s'.native.Silent ∨ .destroy ∈ s'.trace := by
  have hmem : t ∈ t ::ₘ rest := Multiset.mem_cons_self t rest
  have hframe := step_frame h
  rw [total_add, total_coe] at hzero
  rcases step_dropping h with heq | ⟨-, hgone, haccepting, hsubmitted⟩
  · have hbefore : total Thread.dropping (t ::ₘ rest) = 0 := by
      rw [total_cons]
      omega
    rcases hb.gone hbefore with hsilent | hd
    · have howner : t.owner = 0 := by
        have hle := owner_le_dropping t
        rw [total_cons] at hbefore
        omega
      exact .inl (hframe.silent howner hsilent)
    · exact .inr (hframe.trace.subset hd)
  · have hsound := hi.sound t hmem
    cases hgone with
    | start p hsilent =>
      have hs : s.native.Silent := hsilent hsound
      exact .inl ⟨haccepting.trans hs.1, hsubmitted.trans hs.2⟩
    | buffer why => exact .inr (hframe.trace.subset hsound)
    | leak hdone =>
      have hs := (hi.signals.quiesced hsound).1.2
      simp only at hs
      rw [hdone] at hs
      contradiction

theorem BufferInv.released_step (hb : BufferInv ⟨s, t ::ₘ rest⟩)
    (hi : LifetimeInv ⟨s, t ::ₘ rest⟩) (hf : Footing s t ch rest)
    (h : step cfg s t ch = some (s', ts))
    (hzero : total Thread.dropping ((ts : Multiset Thread) + rest) = 0) (b : BufferId) :
    ¬ s'.native.buffers[b]? = some .app := by
  have hmem : t ∈ t ::ₘ rest := Multiset.mem_cons_self t rest
  have htr := step_transfer h
  rw [total_add, total_coe] at hzero
  rcases step_dropping h with heq | ⟨-, hgone, -, -⟩
  · intro happ
    have hbefore : total Thread.dropping (t ::ₘ rest) = 0 := by
      rw [total_cons]
      omega
    refine hb.released hbefore b (htr.app_before hf happ ?_)
    rcases hb.gone hbefore with hsilent | hd
    · exact .inl hsilent.2
    · exact .inr hd
  · have hsound := hi.sound t hmem
    cases hgone with
    | start p hsilent =>
      have hs : s.native.Silent := hsilent hsound
      rw [hb.early_step hf htr hs.2]
      nofun
    | buffer why => exact hb.released_drop hf htr rfl b
    | leak hdone =>
      have hs := (hi.signals.quiesced hsound).1.2
      simp only at hs
      rw [hdone] at hs
      contradiction

end Step

variable {allowed : Policy Shared Thread Choice} {c c' : Config Shared Thread}

/-- What is documented of Cronet's reads, and of its last callbacks. -/
def BufferContract : Policy Shared Thread Choice := fun c t ch =>
  BeginsInTime c t ch ∧ AnswersReads c t ch ∧ HandsBack c t ch

/-- The contract, and the two conditions on the order of the program's own steps. -/
def BufferPolicy : Policy Shared Thread Choice := fun c t ch =>
  BufferContract c t ch ∧ IdleAtCheck Thread.unleased c t ch ∧ ClearsInTime c t ch

theorem BufferPolicy.quiet (h : Reachable (step cfg) BufferPolicy start.config c) :
    .destroy ∈ c.shared.trace → total Thread.callbacks c.threads = 0 := by
  have hmono := Reachable.mono (fun _ _ _ ha => ⟨ha.1.1, ha.2.1⟩ : ∀ c t ch, BufferPolicy c t ch →
    BeginsInTime c t ch ∧ IdleAtCheck Thread.unleased c t ch) h
  exact (lifetimeInv_reachable h).idle callbacks_le_work (callbacks_quiet hmono)

/-- Once the request is destroyed, nobody is about to change the record. -/
theorem settled_of_destroyed (hi : LifetimeInv c)
    (hquiet : .destroy ∈ c.shared.trace → total Thread.callbacks c.threads = 0)
    (hd : .destroy ∈ c.shared.trace) (hu : u ∈ c.threads) (b : BufferId) :
    u.holding ≠ some (.fresh, b) ∧ u.holding ≠ some (.clearing, b) := by
  have hzero : u.callbacks = 0 := total_eq_zero.mp (hquiet hd) u hu
  constructor
  · intro hub
    rw [(fresh_callbacks hub).1] at hzero
    contradiction
  · intro hub
    obtain ⟨site, code, rfl⟩ := clearing_read hub
    cases site with
    | callback | headers => contradiction
    | gated b =>
      have hset : c.shared.control.raw = true := hi.sound _ hu
      rw [hi.signals.raw hd] at hset
      contradiction

theorem footing {rest : Multiset Thread} (hi : LifetimeInv ⟨s, t ::ₘ rest⟩)
    (hb : BufferInv ⟨s, t ::ₘ rest⟩)
    (hquiet : .destroy ∈ s.trace → total Thread.callbacks (t ::ₘ rest) = 0)
    (ha : BufferPolicy ⟨s, t ::ₘ rest⟩ t ch) : Footing s t ch rest := by
  obtain ⟨⟨hbegins, -, hback⟩, -, hclears⟩ := ha
  have hmem : t ∈ t ::ₘ rest := Multiset.mem_cons_self t rest
  have hleased : ∀ u ∈ t ::ₘ rest, u.callbacks = 1 → .destroy ∉ s.trace := by
    intro u hu hone hd
    have hzero := total_eq_zero.mp (hquiet hd) u hu
    omega
  have hraw : .destroy ∈ s.trace → s.control.raw = false := hi.signals.raw
  refine ⟨?_, ?_, ?_, ?_, fun b n content ht hgo => hback b n content ht hgo, hclears, ?_⟩
  · intro ht u hu
    have hadd : t.token + u.token ≤ total Thread.token (t ::ₘ rest) := add_le_total hu
    have hone : (!s.native.responded).toNat + s.native.reading.isSome.toNat +
      total Thread.token (t ::ₘ rest) ≤ 1 := hb.token
    omega
  · intro u hu b hub hd
    exact (settled_of_destroyed hi hquiet hd hu b).1 hub
  · rintro site b rfl hd
    cases site with
    | callback | headers => exact hleased _ hmem rfl hd
    | gated b =>
      have hset : s.control.raw = true := hi.sound _ hmem
      rw [hraw hd] at hset
      contradiction
  · intro ht
    have hd : .destroy ∈ s.trace := by
      cases t with
      | cleanup p => cases p <;> first | exact hi.sound _ hmem | cases ht
      | _ => cases ht
    exact ⟨hd, fun u hu b => (settled_of_destroyed hi hquiet hd hu b).2⟩
  · intro hactive
    have hwork : t.work = 1 := by
      rcases hactive with rfl | ⟨⟨r, rfl, -⟩, -⟩ <;> rfl
    have hsub : s.native.submitted = true := by
      by_contra hne
      have hzero := total_eq_zero.mp (hi.work (by simpa using hne)) t hmem
      omega
    refine ⟨hsub, ?_⟩
    intro hd
    rcases hactive with rfl | ⟨⟨r, rfl, hr⟩, hgo⟩
    · exact hleased _ hmem rfl hd
    · rcases hi.signals.destroyed hd with hq | hsilent
      · have hboth := hi.signals.quiesced hq
        exact hbegins r rfl hgo hr ⟨hboth.1.1, hboth.2⟩
      · have hnone : s.native.submitted = false := hsilent.2
        rw [hsub] at hnone
        contradiction

/-- **The buffer invariant is preserved by every step.** -/
theorem bufferInv_step (hi : LifetimeInv c) (hb : BufferInv c)
    (hquiet : .destroy ∈ c.shared.trace → total Thread.callbacks c.threads = 0)
    (hs : Step (step cfg) BufferPolicy c c') : BufferInv c' := by
  obtain ⟨ha, hn⟩ := hs
  rename_i s s' t ts rest ch
  have hf := footing hi hb hquiet ha
  have htr := step_transfer hn
  have hbudget := step_budget hn ha.1.2.1.1 ha.1.2.1.2
  have hframe := step_frame hn
  have hdropping := dropping_le rest hn
  refine ⟨?_, ?_, hdropping.trans hb.dropping, ?_, hb.gone_step hi hn, hb.fresh_step hf htr,
    hb.held_step hf htr hframe.trace.subset, hb.recorded_step hf htr,
    hb.owned_step hf htr hdropping, hb.released_step hi hf hn, hb.destroyed_step hf htr⟩
  · exact budget_step hb.token hbudget.token
  · exact budget_step hb.birth hbudget.birth
  · intro hsub
    refine hb.early_step hf htr ?_
    by_contra hne
    rw [hframe.submitted (by simpa using hne)] at hsub
    contradiction

theorem bufferInv_reachable (h : Reachable (step cfg) BufferPolicy start.config c) :
    BufferInv c := by
  induction h with
  | refl => exact bufferInv_init
  | tail hr hs ih =>
    exact bufferInv_step (lifetimeInv_reachable hr) ih (BufferPolicy.quiet hr) hs

/-- **Every read buffer is destroyed exactly once.** In every run in which no
accepted `Read` strikes a buffer off the record that a completion has recorded
again, and in which the cleanup task finds no callback between its entry and its
lease: a buffer has been destroyed once or not at all, according to whether it is
freed; when `NativeRequest` comes to drop its buffer, the one on record is exactly
what the application owns; and once nobody is left to drop it, the application
owns none. -/
theorem buffer_destroyed_once (h : Reachable (step cfg) BufferPolicy start.config c) :
    (∀ b, c.shared.trace.count (.bufferDestroyed b) =
      if c.shared.native.buffers[b]? = some .freed then 1 else 0) ∧
    (∀ why, .cleanup (.buffer why) ∈ c.threads → ∀ b : BufferId,
      c.shared.native.buffers[b]? = some .app ↔ c.shared.context.state.buffer = some b) ∧
    ((∀ t ∈ c.threads, t.dropping = 0) →
      ∀ b : BufferId, ¬ c.shared.native.buffers[b]? = some .app) := by
  have hi := lifetimeInv_reachable h
  have hb := bufferInv_reachable h
  have hquiet := BufferPolicy.quiet h
  refine ⟨hb.destroyed, ?_, fun hnone => hb.released (total_eq_zero.mpr hnone)⟩
  intro why hmem b
  have hd : .destroy ∈ c.shared.trace := hi.sound _ hmem
  constructor
  · intro happ
    rcases hb.recorded b happ with hrecord | ⟨u, hu, hub⟩
    · exact hrecord
    · exact absurd hub (settled_of_destroyed hi hquiet hd hu b).1
  · intro hrecord
    rcases hb.owned b hrecord with happ | ⟨u, hu, hub⟩ | hgone
    · exact happ
    · exact absurd hub (settled_of_destroyed hi hquiet hd hu b).2
    · have hone := total_eq_zero.mp hgone _ hmem
      contradiction

/-- `AnswersReads` as a test. -/
def answersReads (c : Listed Shared Thread) : Choice → Bool
  | .submit (.responseStarted _) => !c.shared.native.responded
  | .submit (.readCompleted b _ _) => c.shared.native.reading = some b
  | _ => true

/-- `HandsBack` as a test. -/
def handsBack (c : Listed Shared Thread) : Thread → Bool
  | .runnable .running (.readCompleted b _ _) => c.shared.native.buffers[b]? = some .cronet
  | _ => true

/-- `BufferContract` as a test. -/
def bufferContract (c : Listed Shared Thread) (t : Thread) (ch : Choice) : Bool :=
  beginsInTime c t ch && (answersReads c ch && handsBack c t)

theorem answersReads_sound (c : Listed Shared Thread) (t : Thread) (ch : Choice)
    (h : answersReads c ch = true) : AnswersReads c.config t ch := by
  constructor
  · rintro info rfl
    have hnew : (!c.shared.native.responded) = true := h
    exact Bool.not_eq_true' _ |>.mp hnew
  · rintro b n content rfl
    exact of_decide_eq_true h

theorem bufferContract_sound (c : Listed Shared Thread) (t : Thread) (ch : Choice)
    (h : bufferContract c t ch = true) : BufferContract c.config t ch := by
  rw [bufferContract, Bool.and_eq_true, Bool.and_eq_true] at h
  obtain ⟨hbegins, hreads, hback⟩ := h
  refine ⟨beginsInTime_sound c t ch hbegins, answersReads_sound c t ch hreads, ?_⟩
  rintro b n content rfl -
  exact of_decide_eq_true hback

/-- `ClearsInTime` as a test. -/
def clearsInTime (c : Listed Shared Thread) (t : Thread) : Bool :=
  match t.holding with
  | some (.clearing, b) => !(c.shared.native.buffers[b]? = some .app) ||
      c.threads.any fun u => u.holding = some (.fresh, b)
  | _ => true

/-- `BufferPolicy` as a test. -/
def bufferPolicy (c : Listed Shared Thread) (t : Thread) (ch : Choice) : Bool :=
  bufferContract c t ch && (idleAtCheck Thread.unleased c t && clearsInTime c t)

theorem bufferPolicy_sound (c : Listed Shared Thread) (t : Thread) (ch : Choice)
    (h : bufferPolicy c t ch = true) : BufferPolicy c.config t ch := by
  rw [bufferPolicy, Bool.and_eq_true, Bool.and_eq_true] at h
  obtain ⟨hcontract, hidle, hclears⟩ := h
  refine ⟨bufferContract_sound c t ch hcontract, idleAtCheck_sound _ c t ch hidle, ?_⟩
  intro b hb happ
  have hown : c.shared.native.buffers[b]? = some .app := happ
  have hfresh : ∃ u ∈ c.threads, u.holding = some (.fresh, b) := by
    simpa [clearsInTime, hb, hown] using hclears
  obtain ⟨u, hu, hub⟩ := hfresh
  exact ⟨u, Multiset.mem_coe.mpr hu, hub⟩

/-- `on_response_started` up to the return of its `Read`. -/
def readsFirst : Schedule :=
  starts ++ enters (.responseStarted okInfo) ++
  [(.runnable .entered (.responseStarted okInfo), go 4 ++ [.result none])]

/-- `on_read_completed` up to the record of its buffer. -/
def completes : Schedule :=
  enters (.readCompleted 0 1 (some [7])) ++
  [(.runnable .entered (.readCompleted 0 1 (some [7])), go 2)]

/-- The read is completed and its chunk handed to a task; the request is cancelled
and cleaned up. The completion overtakes the end of the `Read` or it does not. -/
def readsChunk (overtakes : Bool) : Schedule :=
  readsFirst ++
  (if overtakes then completes ++ [(.read (.returned .callback 0 none), go 3)]
    else [(.read (.returned .callback 0 none), go 4)] ++ completes) ++
  [(.callback (.account 0 1 (some [7])), go 2), (.callback .leave, go 3)] ++
  cancels ++ endsCanceled ++ cleansUp ++ [(.cleanup (.unlock .cleanup), go 2)]

theorem buffer_destroyed_once_readsChunk :
    (Pool.play (step {}) bufferPolicy start (readsChunk false)).shared.native.buffers = [.freed] ∧
    (Pool.play (step {}) bufferPolicy start (readsChunk false)).config.shared.trace.count
      (.bufferDestroyed 0) = 1 := by
  have hfreed : (Pool.play (step {}) bufferPolicy start
      (readsChunk false)).shared.native.buffers = [.freed] := by
    decide +kernel
  refine ⟨hfreed, ?_⟩
  rw [(buffer_destroyed_once
    (c := (Pool.play (step {}) bufferPolicy start (readsChunk false)).config)
    (play_reachable bufferPolicy_sound (readsChunk false) Reachable.start)).1 0, if_pos]
  rw [Listed.config, hfreed]
  rfl

/-- **A completion that overtakes the end of its `Read` leaks the buffer.** -/
theorem buffer_leaked :
    ∃ c, Reachable (step {}) BufferContract start.config c ∧
      (∀ t ∈ c.threads, t.dropping = 0) ∧ .bufferCreated 0 ∈ c.shared.trace ∧
      c.shared.native.buffers[0]? = some .app ∧
      c.shared.trace.count (.bufferDestroyed 0) = 0 := by
  refine ⟨(Pool.play (step {}) bufferContract start (readsChunk true)).config,
    play_reachable bufferContract_sound (readsChunk true) Reachable.start, ?_⟩
  decide +kernel

end TokioCronet.Request
