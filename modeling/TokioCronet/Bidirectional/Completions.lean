import TokioCronet.Bidirectional.Flushed
import TokioCronet.Bidirectional.Sleep

/-!
# What the native stream has been given

The native stream completes writes that were handed to it. Without auto-flush it waits
for a flush, and the write loop waits with it: from the native flush on until all the
writes before it are completed it takes no command out of the queue. So while no flush is
under way, whatever was flushed has been completed.
-/

namespace TokioCronet.Bidirectional

open Pool

section

variable {cfg : Settings} {s s' : Flow} {t u : Thread} {ts : List Thread} {rest : Multiset Thread}

/-! ## Completions belong to writes -/

/-- The completions that have come and those that can come belong to writes. -/
def Delivered (s : Side) (f : Flow) : Prop :=
  ∀ pointer, (atPointer pointer s.outstanding).length + completionsAt pointer f.trace ≤
    writesAt pointer s.written

/-- Only the native stream completes. -/
theorem completions_step (hs : FlowStep cfg s t ts s') :
    (∀ p, completionsAt p s'.trace = completionsAt p s.trace) ∨
    ∃ pointer, t = .outside .cronet ∧
      ts = [.outside .cronet, .callback (.entered (.writeCompleted pointer))] ∧
      s'.trace = s.trace ++ [.callbackBegun (.writeCompleted pointer)] := by
  induction hs with
  | calls ht hts => exact .inr ⟨_, ht, hts, rfl⟩
  | unblocks | drain =>
    left
    intro p
    rw [completionsAt_append, completionsAt_answers, Nat.add_zero]
  | write | flush | refuses | fails | polls | answers | accepts | receives | ends =>
    exact .inl fun _ => completionsAt_append
  | _ => exact .inl fun _ => rfl

theorem SideStep.writes {s s' : Side} (hs : SideStep cfg s t ts s') :
    ∃ l, s'.written = s.written ++ l := by
  induction hs with
  | wake => exact ⟨[], by rw [wake_written, List.append_nil]⟩
  | write | writeFails => exact ⟨_, rfl⟩
  | _ => exact ⟨[], (List.append_nil _).symm⟩

theorem Delivered.kept {s s' : Side} {f f' : Flow} (h : Delivered s f)
    (ho : s'.outstanding = s.outstanding) (hw : ∃ l, s'.written = s.written ++ l)
    (hf : ∀ p, completionsAt p f'.trace = completionsAt p f.trace) : Delivered s' f' := by
  intro p
  obtain ⟨l, hl⟩ := hw
  have hp := h p
  rw [ho, hl, hf p, writesAt_append]
  omega

theorem atPointer_single {pointer : Nat} {data : Buffer} :
    (atPointer pointer [data]).length = if data.pointer = pointer then 1 else 0 := by
  rw [atPointer, ← List.countP_eq_length_filter, List.countP_singleton]
  simp only [beq_iff_eq]

theorem Delivered.step {s s' : Side} {f f' : Flow} (h : Delivered s f)
    (hs : SideStep cfg s t ts s') (hf : FlowStep cfg f t ts f') : Delivered s' f' := by
  rcases completions_step hf with hsame | ⟨pointer, rfl, rfl, htrace⟩
  · by_cases ho : s'.outstanding = s.outstanding
    · exact h.kept ho hs.writes hsame
    · induction hs with
      | @write data eos ht hts =>
        intro p
        have hp := h p
        show (atPointer p (s.outstanding ++ [data])).length + _ ≤ writesAt p (s.written ++ [_])
        rw [hsame p, atPointer_append, List.length_append, writesAt_append, writesAt_single,
          atPointer_single]
        omega
      | @calls pointer ht hany hts =>
        intro p
        have hp := h p
        have hle : (atPointer p (s.outstanding.eraseP (·.pointer == pointer))).length ≤
            (atPointer p s.outstanding).length :=
          (List.eraseP_sublist.filter _).length_le
        show (atPointer p (s.outstanding.eraseP _)).length + _ ≤ writesAt p s.written
        rw [hsame p]
        omega
      | wake => exact absurd wake_outstanding ho
      | _ => exact absurd rfl ho
  · induction hs with
    | @calls pointer' ht hany hts =>
      -- the buffer that is given back is the one that the completion is for
      simp only [List.cons.injEq, Thread.callback.injEq, InCallback.entered.injEq,
        Callback.writeCompleted.injEq, and_true, true_and] at hts
      subst hts
      intro p
      have hp := h p
      show (atPointer p (s.outstanding.eraseP _)).length + completionsAt p f'.trace ≤
        writesAt p s.written
      rw [htrace, completionsAt_append, completionsAt_single]
      by_cases hpointer : pointer = p
      · subst hpointer
        obtain ⟨b, hb, hbp⟩ := List.any_eq_true.mp hany
        have hpos : 0 < (atPointer pointer s.outstanding).length :=
          List.length_pos_of_mem (List.mem_filter.mpr ⟨hb, hbp⟩)
        rw [atPointer_erase, List.length_tail, if_pos rfl]
        omega
      · rw [atPointer_erase_ne (Ne.symm hpointer), if_neg hpointer]
        omega
    | quiet hk | wake hk =>
      have hsum := hk.completes pointer
      simp [Thread.completes] at hsum
    | drain ht => cases ht
    | answers ht => obtain ⟨ht, -⟩ | ⟨e, ht, -⟩ := ht <;> cases ht
    | popData ht | popFlush ht | push ht | write ht | writeFails ht | register ht | complete ht
    | begins ht | accepts ht | stores ht | parks ht | control ht | notifies ht | receives ht =>
      cases ht

theorem delivered_reachable {allowed : Policy Shared Thread Choice} {c : Config Shared Thread}
    (h : Reachable (step cfg) allowed start.config c) : Delivered c.shared.side c.shared.flow := by
  refine h.invariant (P := fun c => Delivered c.shared.side c.shared.flow) (fun _ => le_rfl) ?_
  rintro _ _ - hi ⟨-, hn⟩
  exact hi.step (step_side hn) (step_flow hn)

/-! ## The write loop behind a flush -/

/-- The write loop is with a command that the native stream has not been given. -/
def Thread.loads (t : Thread) : Bool :=
  match t.stage with
  | some (.holds _) | some (.writes _) => true
  | _ => false

theorem flushCalled_written {tr : List Event} {n : Nat} (h : FlushCalled tr n) :
    n ≤ (written tr).length := by
  rcases h with rfl | ⟨l, r, rfl, hn⟩
  · exact Nat.zero_le _
  · rw [written_append, List.length_append]
    exact Nat.le_add_right_of_le hn

/-- A flush that was called was called before the events that are none. -/
theorem flushCalled_before {tr l : List Event} {n : Nat} (h : FlushCalled (tr ++ l) n)
    (hl : .flush ∉ l) : FlushCalled tr n := by
  rcases h with hzero | ⟨l', r, heq, hn⟩
  · exact .inl hzero
  · rcases List.append_eq_append_iff.mp heq with ⟨m, rfl, hm⟩ | ⟨m, rfl, hm⟩
    · refine absurd ?_ hl
      rw [hm]
      exact List.mem_append_right m List.mem_cons_self
    · cases m with
      | nil =>
        refine absurd ?_ hl
        rw [← show _ = l from hm]
        exact List.mem_cons_self
      | cons e m =>
        obtain ⟨rfl, rfl⟩ := List.cons.inj hm
        exact .inr ⟨l', m, rfl, hn⟩

/-- What the write loop knows of the writes while it is with a flush, and after it. -/
structure Barred (s : Flow) (threads : Multiset Thread) : Prop where
  /-- From its native call on, the flush is the last that was called. -/
  carried : ∀ t ∈ threads, ∀ w, t.carries = some (w, true) →
    FlushCalled s.trace (written s.trace).length
  /-- While the queue is blocked, the flush is for all that was written. -/
  blocked : s.state.terminal = none → s.state.flushBlocked = true →
    FlushCalled s.trace (written s.trace).length ∧ s.state.inFlightCount ≠ 0 ∧
      ∀ t ∈ threads, t.loads = false
  /-- Beyond it, what was flushed has been completed. -/
  settled : s.state.terminal = none → s.state.flushBlocked = false →
    (∀ t ∈ threads, ∀ w, t.carries ≠ some (w, true)) →
    ∀ n, FlushCalled s.trace n → Completed s.trace n

/-- How the write loop moves. -/
structure Loads (s : Flow) (t : Thread) (s' : Flow) (ts : List Thread) : Prop where
  /-- A write loop that is blocked hands nothing over. -/
  loads : s.state.flushBlocked = true → ∀ u ∈ ts, u.loads = true → t.loads = true
  /-- A flush is carried on until it is registered. -/
  carries : ∀ w, t.carries = some (w, true) → t = .writer (.register w) ∨
    ∃ u ∈ ts, u.carries = some (w, true)
  /-- A flush is answered, or waits for what is in flight. -/
  register : ∀ w, t = .writer (.register w) → ts = [.writer .top] ∧
    (s.state.inFlightCount = 0 ∧
        s' = { s with trace := s.trace ++ [.answered w (.ok ())] } ∨
      s.state.inFlightCount ≠ 0 ∧ s' = { s with
        state.flushBlocked := true, state.flushWaiters := s.state.flushWaiters ++ [w] })
  /-- A completion wakes the write loop with the last write in flight. -/
  complete : ∀ p, t = .callback (.complete p) → s'.state.flushBlocked = true →
    s'.state.inFlightCount ≠ 0

end

section

variable {cfg : Settings} {s s' : Shared} {t u : Thread} {ch : Choice} {ts : List Thread}

theorem carries_register {w : Waiter} (h : t.carries = some (w, true)) :
    t = .writer (.register w) ∨ t = .control (.unlock (.flush w) none) := by
  revert h
  fun_cases Thread.carries t <;> intro h
  case case7 =>
    cases h
    exact .inr rfl
  case case8 =>
    cases h
    exact .inl rfl
  all_goals first
    | cases h
    | unfold GatedOp.carries at h
      split at h <;> cases h

theorem moves_loads {g' : Stage} {g : Stage} (hm : g.Moves g') (ht : t.stage = some g)
    (hu : u.stage = some g') (hloads : u.loads = true) : t.loads = true := by
  induction hm with
  | stays =>
    unfold Thread.loads at hloads ⊢
    rw [ht]
    rw [hu] at hloads
    exact hloads
  | spawned | stops =>
    unfold Thread.loads at hloads
    rw [hu] at hloads
    cases hloads

theorem loads_one {v : Thread} (hv : v.loads = true → t.loads = true) :
    ∀ u ∈ [v], u.loads = true → t.loads = true := List.forall_mem_singleton.mpr hv

/-- Behind a flush the write loop takes nothing up. -/
theorem step_unloaded (h : step cfg s t ch = some (s', ts))
    (hblocked : s.write.state.flushBlocked = true) :
    ∀ u ∈ ts, u.loads = true → t.loads = true := by
  have hpop : ∀ epoch, t = .writer (.pop epoch) → ts = [.writer (.check epoch)] := by
    rintro epoch rfl
    cases ch with
    | go =>
      rw [step, writerStep, hblocked, Bool.or_true, if_pos rfl] at h
      cases h
      rfl
    | _ => cases h
  have hs := step_side h
  revert hs
  generalize s'.side = x
  intro hs
  induction hs with
  | quiet hk | wake hk =>
    intro u hu hloads
    cases hg : u.stage with
    | none =>
      unfold Thread.loads at hloads
      rw [hg] at hloads
      cases hloads
    | some g' =>
      obtain ⟨g, ht, hm⟩ := hk.stage u hu g' hg
      exact moves_loads hm ht hg hloads
  | popData ht _ _ hts | popFlush ht _ _ hts =>
    rw [hpop _ ht] at hts
    cases hts
  | push ht hts | write ht hts | writeFails ht hts =>
    subst ht hts
    exact loads_one fun _ => rfl
  | register ht _ hts | accepts ht _ hts | parks ht _ hts =>
    subst ht hts
    exact loads_one Bool.noConfusion
  | answers ht =>
    obtain ⟨rfl, rfl⟩ | ⟨e, rfl, rfl⟩ := ht <;> exact loads_one Bool.noConfusion
  | calls ht _ hts =>
    subst ht hts
    exact List.forall_mem_cons.mpr ⟨Bool.noConfusion, loads_one Bool.noConfusion⟩
  | drain ht hts =>
    rename_i who result
    subst ht hts
    cases who <;> exact loads_one Bool.noConfusion
  | complete ht hts _ | control ht hts _ | begins ht hts | stores ht hts | notifies ht hts
  | receives ht hts =>
    subst ht hts
    exact loads_one Bool.noConfusion

theorem step_loads (h : step cfg s t ch = some (s', ts)) : Loads s.flow t s'.flow ts where
  loads := step_unloaded h
  carries := by
    intro w hcarries
    rcases carries_register hcarries with rfl | rfl
    · exact .inl rfl
    · cases ch with
      | go =>
        cases h
        exact .inr ⟨_, List.mem_singleton_self _, rfl⟩
      | _ => cases h
  register := by
    rintro w rfl
    cases ch with
    | go =>
      rw [step, writerStep] at h
      split_ifs at h with hzero
      · cases h
        refine ⟨rfl, .inl ⟨hzero, ?_⟩⟩
        exact flow_extend rfl rfl rfl rfl rfl rfl rfl
      · cases h
        exact ⟨rfl, .inr ⟨hzero, rfl⟩⟩
    | _ => cases h
  complete := by
    rintro p rfl hblocked hzero
    cases ch with
    | go =>
      rw [step, callbackStep] at h
      split_ifs at h with hdone
      · cases h
        cases hblocked
      · cases h
        exact hdone ⟨hzero, hblocked⟩
    | _ => cases h

end

section

variable {cfg : Settings} {s s' : Flow} {t u : Thread} {ts : List Thread} {rest : Multiset Thread}

/-- What a flush that is under way says, the flush of another thread does not change. -/
theorem Barred.carried_step {l : List Event} (h : Barred s (t ::ₘ rest))
    (htr : s'.trace = s.trace ++ l) (hw : written l = [])
    (hback : ∀ u ∈ ts, ∀ w, u.carries = some (w, true) → t.carries = some (w, true)) :
    ∀ u ∈ (ts : Multiset Thread) + rest, ∀ w, u.carries = some (w, true) →
      FlushCalled s'.trace (written s'.trace).length := by
  rw [htr, written_append, hw, List.append_nil]
  intro u hu w hcarries
  refine FlushCalled.append ?_ l
  rcases Multiset.mem_add.mp hu with hu | hu
  · exact h.carried t (Multiset.mem_cons_self t rest) w
      (hback u (Multiset.mem_coe.mp hu) _ hcarries)
  · exact h.carried u (Multiset.mem_cons_of_mem hu) w hcarries

/-- Nobody was with a flush when nobody is now. -/
theorem Loads.uncarried (hm : Loads s t s' ts) (hne : ∀ w, t ≠ .writer (.register w))
    (h : ∀ u ∈ (ts : Multiset Thread) + rest, ∀ w, u.carries ≠ some (w, true)) :
    ∀ u ∈ t ::ₘ rest, ∀ w, u.carries ≠ some (w, true) := by
  intro u hu w hcarries
  rcases Multiset.mem_cons.mp hu with rfl | hu
  · rcases hm.carries w hcarries with hreg | ⟨v, hv, hv'⟩
    · exact hne w hreg
    · exact h v (Multiset.mem_add.mpr (.inl (Multiset.mem_coe.mpr hv))) w hv'
  · exact h u (Multiset.mem_add.mpr (.inr hu)) w hcarries

theorem Loads.unloaded (hm : Loads s t s' ts) (hblocked : s.state.flushBlocked = true)
    (h : ∀ u ∈ t ::ₘ rest, u.loads = false) :
    ∀ u ∈ (ts : Multiset Thread) + rest, u.loads = false := by
  intro u hu
  rcases Multiset.mem_add.mp hu with hu | hu
  · by_contra hloads
    have ht := hm.loads hblocked u (Multiset.mem_coe.mp hu) (Bool.not_eq_false _ ▸ hloads)
    rw [h t (Multiset.mem_cons_self t rest)] at ht
    cases ht
  · exact h u (Multiset.mem_cons_of_mem hu)

/-- A step that hands nothing over and flushes nothing. -/
theorem Barred.still {l : List Event} (h : Barred s (t ::ₘ rest)) (hm : Loads s t s' ts)
    (hne : ∀ w, t ≠ .writer (.register w)) (htr : s'.trace = s.trace ++ l) (hw : written l = [])
    (hl : .flush ∉ l) (hterm : s'.state.terminal = s.state.terminal)
    (hblocked : s'.state.flushBlocked = s.state.flushBlocked)
    (hcount : s'.state.flushBlocked = true → s.state.inFlightCount ≠ 0 →
      s'.state.inFlightCount ≠ 0)
    (hback : ∀ u ∈ ts, ∀ w, u.carries = some (w, true) → t.carries = some (w, true)) :
    Barred s' (ts + rest) := by
  refine ⟨h.carried_step htr hw hback, ?_, ?_⟩
  · intro hnone hblocked'
    have hbefore : s.state.flushBlocked = true := hblocked ▸ hblocked'
    obtain ⟨hcalled, hpos, hloads⟩ := h.blocked (hterm ▸ hnone) hbefore
    refine ⟨?_, hcount hblocked' hpos, hm.unloaded hbefore hloads⟩
    rw [htr, written_append, hw, List.append_nil]
    exact hcalled.append l
  · intro hnone hfree hnobody n hcalled
    rw [htr] at hcalled ⊢
    refine (h.settled (hterm ▸ hnone) (hblocked ▸ hfree) (hm.uncarried hne hnobody) n ?_).append l
    exact flushCalled_before hcalled hl

/-- `register` answers the flush, or it blocks the queue until the writes before it are
completed. -/
theorem Barred.register_step {w : Waiter} (h : Barred s (.writer (.register w) ::ₘ rest))
    (hledger : LedgerInv s (.writer (.register w) ::ₘ rest))
    (hloops : total Thread.loops (.writer (.register w) ::ₘ rest) ≤ 1)
    (hm : Loads s (.writer (.register w)) s' ts) : Barred s' (ts + rest) := by
  have halone : ∀ u ∈ rest, u.stage = none := fun u hu => stage_alone hloops rfl hu
  have hcalled := h.carried _ (Multiset.mem_cons_self _ rest) w rfl
  obtain ⟨rfl, hor⟩ := hm.register w rfl
  have hnobody : ∀ u ∈ (([.writer .top] : List Thread) : Multiset Thread) + rest, ∀ x,
      u.carries ≠ some (x, true) := by
    intro u hu x hcarries
    rcases Multiset.mem_add.mp hu with hu | hu
    · obtain rfl := List.mem_singleton.mp (Multiset.mem_coe.mp hu)
      cases hcarries
    · rcases carries_register hcarries with rfl | rfl <;> cases halone _ hu
  rcases hor with ⟨hzero, rfl⟩ | ⟨hpos, rfl⟩
  · refine ⟨fun u hu x hcarries => absurd hcarries (hnobody u hu x), ?_, ?_⟩
    · intro hnone hblocked
      exact absurd hzero (h.blocked hnone hblocked).2.1
    · intro _ _ _ n hn
      refine (hledger.completed hzero ?_).append _
      exact flushCalled_written (flushCalled_before hn (by simp))
  · refine ⟨fun u hu x hcarries => absurd hcarries (hnobody u hu x), ?_, nofun⟩
    intro _ _
    refine ⟨hcalled, hpos, ?_⟩
    intro u hu
    rcases Multiset.mem_add.mp hu with hu | hu
    · obtain rfl := List.mem_singleton.mp (Multiset.mem_coe.mp hu)
      rfl
    · rw [Thread.loads, halone u hu]

theorem uncalled {v : Thread} (hv : ∀ w, v.carries ≠ some (w, true)) :
    ∀ u ∈ [v], ∀ w, u.carries = some (w, true) → t.carries = some (w, true) :=
  List.forall_mem_singleton.mpr fun w hw => absurd hw (hv w)

/-- While the write loop hands a command over, nobody is with a flush. -/
theorem uncalled_rest {g : Stage} (hloops : total Thread.loops (t ::ₘ rest) ≤ 1)
    (ht : t.stage = some g) (hu : u ∈ rest) {w : Waiter} : u.carries ≠ some (w, true) := by
  intro hcarries
  have hnone := stage_alone hloops ht hu
  rcases carries_register hcarries with rfl | rfl <;> cases hnone

/-- **Every step keeps the writes behind the flush.** -/
theorem barred_step (h : Barred s (t ::ₘ rest)) (hledger : LedgerInv s (t ::ₘ rest))
    (hloops : total Thread.loops (t ::ₘ rest) ≤ 1) (hm : Loads s t s' ts)
    (hs : FlowStep cfg s t ts s') : Barred s' (ts + rest) := by
  have hmem : t ∈ t ::ₘ rest := Multiset.mem_cons_self t rest
  have hledger' := ledgerInv_step hledger hs
  have hnil : s.trace = s.trace ++ [] := (List.append_nil _).symm
  by_cases hreg : ∃ w, t = .writer (.register w)
  · obtain ⟨w, rfl⟩ := hreg
    exact h.register_step hledger hloops hm
  have hne : ∀ w, t ≠ .writer (.register w) := fun w ht => hreg ⟨w, ht⟩
  induction hs with
  | quiet hp =>
    exact h.still hm hne hnil rfl nofun rfl rfl (fun _ => id)
      fun u hu w => hp.carries u hu (w, true)
  | register ht | answers ht => exact absurd ht (hne _)
  | popData ht _ hts | begins ht _ hts =>
    subst ht hts
    exact h.still hm hne hnil rfl nofun rfl rfl (fun _ => id) (uncalled nofun)
  | waits ht hts _ =>
    subst ht hts
    exact h.still hm hne hnil rfl nofun rfl rfl (fun _ => id) (uncalled nofun)
  | popFlush ht _ _ hts =>
    subst ht hts
    exact h.still hm hne hnil rfl nofun rfl rfl (fun _ => id) (uncalled nofun)
  | stores ht hts | starts ht hts | enqueues ht hts =>
    subst ht hts
    exact h.still hm hne hnil rfl nofun rfl rfl (fun _ => id) (uncalled nofun)
  | opens ht hts =>
    subst ht hts
    refine h.still hm hne hnil rfl nofun rfl rfl (fun _ => id) ?_
    exact List.forall_mem_cons.mpr ⟨nofun, List.forall_mem_cons.mpr ⟨nofun, uncalled nofun⟩⟩
  | push ht hts =>
    subst ht hts
    exact h.still hm hne hnil rfl nofun rfl rfl (fun _ _ => Nat.succ_ne_zero _) (uncalled nofun)
  | refuses ht hts | fails ht hts _ | polls ht _ hts _ =>
    subst ht hts
    exact h.still hm hne rfl rfl (by simp) rfl rfl (fun _ => id) (uncalled nofun)
  | accepts ht _ hts | receives ht _ _ hts | ends ht _ hts =>
    subst ht hts
    exact h.still hm hne rfl rfl (by simp) rfl rfl (fun _ => id) (uncalled nofun)
  | calls ht hts =>
    subst ht hts
    refine h.still hm hne rfl rfl (by simp) rfl rfl (fun _ => id) ?_
    exact List.forall_mem_cons.mpr ⟨nofun, uncalled nofun⟩
  | completes ht hts =>
    subst ht hts
    exact h.still hm hne hnil rfl nofun remove_terminal (remove_kept _ _).2.2
      (fun hblocked _ => hm.complete _ rfl hblocked) (uncalled nofun)
  | @unblocks p ht hzero hts =>
    subst ht hts
    refine ⟨h.carried_step rfl (written_answers _ _) (uncalled nofun), nofun, ?_⟩
    intro _ _ _ n hn
    refine hledger'.completed hzero ?_
    exact flushCalled_written hn
  | drain ht hts =>
    subst ht hts
    exact ⟨h.carried_step rfl (written_answers _ _) (uncalled nofun), nofun, nofun⟩
  | @write data eos e ht hts =>
    subst ht hts
    have hnobody : ∀ u ∈ (([.control (.unlock (.write data eos) e)] : List Thread) :
        Multiset Thread) + rest, ∀ w, u.carries ≠ some (w, true) := by
      intro u hu w
      rcases Multiset.mem_add.mp hu with hu | hu
      · obtain rfl := List.mem_singleton.mp (Multiset.mem_coe.mp hu)
        cases e <;> nofun
      · exact uncalled_rest hloops rfl hu
    refine ⟨fun u hu w hcarries => absurd hcarries (hnobody u hu w), ?_, ?_⟩
    · intro hnone hblocked
      have hloads := (h.blocked hnone hblocked).2.2 _ hmem
      cases hloads
    · intro hnone hfree _ n hn
      refine (h.settled hnone hfree (hm.uncarried hne hnobody) n ?_).append _
      exact flushCalled_before hn (by simp)
  | @flush waiter ht hts =>
    subst ht hts
    have hlen : written (s.trace ++ [.flush]) = written s.trace :=
      (written_append _ _).trans (List.append_nil _)
    have hcalled : FlushCalled (s.trace ++ [.flush]) (written (s.trace ++ [.flush])).length :=
      .inr ⟨s.trace, [], rfl, by rw [hlen]⟩
    refine ⟨fun _ _ _ _ => hcalled, ?_, ?_⟩
    · intro hnone hblocked
      obtain ⟨-, hpos, hloads⟩ := h.blocked hnone hblocked
      exact ⟨hcalled, hpos, hm.unloaded hblocked hloads⟩
    · intro _ _ hnobody
      refine absurd rfl (hnobody (.control (.unlock (.flush waiter) none)) ?_ waiter)
      exact Multiset.mem_add.mpr (.inl (Multiset.mem_coe.mpr List.mem_cons_self))

theorem barred_init : Barred (Shared.flow {}) start.config.threads where
  carried := by
    intro t ht w hcarries
    simp only [start, Listed.config, Multiset.mem_coe, List.mem_cons, List.not_mem_nil,
      or_false] at ht
    rcases ht with rfl | rfl | rfl <;> cases hcarries
  blocked := nofun
  settled := by
    intro _ _ _ n hn
    have hzero : n ≤ 0 := flushCalled_written hn
    obtain rfl := Nat.le_zero.mp hzero
    exact ⟨le_rfl, fun _ => le_rfl⟩

theorem barred_reachable {allowed : Policy Shared Thread Choice} {c : Config Shared Thread}
    (h : Reachable (step cfg) allowed start.config c) : Barred c.shared.flow c.threads := by
  refine h.invariant (P := fun c => Barred c.shared.flow c.threads) barred_init ?_
  rintro _ _ hr hi ⟨-, hn⟩
  exact barred_step hi (ledgerInv_reachable hr) (orderInv_reachable hr).loops (step_loads hn)
    (step_flow hn)

end

section

variable {cfg : Settings} {s s' : Shared} {t u : Thread} {ch : Choice} {ts : List Thread}
  {allowed : Policy Shared Thread Choice} {c c' : Config Shared Thread}

/-! ## The native stream takes calls -/

/-- Who decides whether the native stream takes calls. -/
inductive Accepts (s : Shared) (t : Thread) (s' : Shared) (ts : List Thread) : Prop
  | starts : t = .openStream .start → s'.native.accepting = true → Accepts s t s' ts
  | returns : t = .openStream .startReturn → .openStream .startReturn ∉ ts →
      s'.trace = s.trace → Accepts s t s' ts
  | same : s'.native.accepting = s.native.accepting → .openStream .startReturn ∉ ts →
      (t = .outside .cronet → .outside .cronet ∈ ts) → Accepts s t s' ts

theorem wake_native : s.wake.native = s.native := by
  unfold Shared.wake
  split <;> rfl

theorem releaseArc_native : s.releaseArc.native = s.native := by
  unfold Shared.releaseArc
  split_ifs <;> rfl

/-- `open` waits for the native start to return. -/
def Thread.returns : Thread → Bool
  | .openStream .startReturn => true
  | _ => false

theorem unreturned (h : ts.any Thread.returns = false) : .openStream .startReturn ∉ ts := by
  intro hmem
  rw [List.any_eq_true.mpr ⟨_, hmem, rfl⟩] at h
  cases h

/-- A step that leaves the native stream alone. -/
theorem Accepts.still (hn : s'.native = s.native) (hts : ts.any Thread.returns = false)
    (ht : t = .outside .cronet → .outside .cronet ∈ ts) : Accepts s t s' ts :=
  .same (hn ▸ rfl) (unreturned hts) ht

theorem step_accepts (h : step cfg s t ch = some (s', ts)) : Accepts s t s' ts := by
  revert h
  cases t <;> simp only [step]
  case outside who =>
    fun_cases outsideStep s who ch <;> intro h
    case case1 c _ =>
      obtain ⟨native, hcall, heq⟩ := Option.map_eq_some_iff.mp h
      cases heq
      refine .same ?_ (unreturned rfl) fun _ => List.mem_cons_self
      unfold Native.call at hcall
      split at hcall
      · split_ifs at hcall
        cases hcall
        rfl
      · cases hcall
        rfl
    all_goals
      cases h
      try exact .still rfl rfl (by simp)
  case openStream p =>
    fun_cases openStep cfg s p ch <;> first | exact of_none | apply of_some
    all_goals first
      | exact .still rfl rfl (by simp)
      | exact .same rfl (unreturned rfl) (by simp)
      | exact .starts rfl rfl
      | exact .returns rfl (unreturned rfl) rfl
  case shutdown p =>
    fun_cases shutdownStep s p ch <;> first | exact of_none | apply of_some
    all_goals exact .still rfl rfl (by simp)
  case control p =>
    fun_cases controlStep s p ch <;> first | exact of_none | apply of_some
    case case26 op e => fun_cases GatedOp.after op e <;> exact .still rfl rfl (by simp)
    all_goals first
      | exact .still rfl rfl (by simp)
      | exact .same rfl (unreturned rfl) (by simp)
  case callback p =>
    fun_cases callbackStep cfg s p ch <;> first | exact of_none | apply of_some
    case case1 c => cases c <;> exact .still rfl rfl (by simp)
    all_goals first
      | exact .still rfl rfl (by simp)
      | exact .still wake_native rfl (by simp)
  case terminal p =>
    fun_cases terminalStep s p ch <;> first | exact of_none | apply of_some
    all_goals exact .still rfl rfl (by simp)
  case finish p =>
    fun_cases finishStep s p ch <;> first | exact of_none | apply of_some
    case case1 => exact .still rfl rfl (by simp)
    case case2 => exact .still wake_native rfl (by simp)
    case case3 who _ => cases who <;> exact .still rfl rfl (by simp)
  case task p =>
    fun_cases taskStep cfg s p ch <;> first | exact of_none | apply of_some
    all_goals first
      | exact .still rfl rfl (by simp)
      | exact .still releaseArc_native rfl (by simp)
  case writer p =>
    fun_cases writerStep s p ch <;> first | exact of_none | apply of_some
    all_goals exact .still rfl rfl (by simp)
  case stream p =>
    fun_cases streamStep cfg s p ch <;> first | exact of_none | apply of_some
    all_goals exact .still rfl rfl (by simp)
  case cleanup p =>
    fun_cases cleanupStep s p ch <;> first | exact of_none | apply of_some
    all_goals first
      | exact .still rfl rfl (by simp)
      | exact .same rfl (unreturned rfl) (by simp)
      | exact .still releaseArc_native rfl (by simp)

/-- A started native stream takes callbacks. -/
structure NativeInv (c : Config Shared Thread) : Prop where
  /-- Cronet is there. -/
  cronet : .outside .cronet ∈ c.threads
  /-- It takes callbacks before the start returns. -/
  starting : .openStream .startReturn ∈ c.threads → c.shared.native.accepting = true
  /-- It takes callbacks afterwards. -/
  started : .started ∈ c.shared.trace → c.shared.native.accepting = true

theorem nativeInv_init : NativeInv start.config where
  cronet := by simp [start, Listed.config]
  starting := by simp [start, Listed.config]
  started := by simp [start, Listed.config]

theorem nativeInv_step (ha : AbandonInv c) (hi : NativeInv c)
    (hs : Step (step cfg) allowed c c') : NativeInv c' := by
  obtain ⟨_, hn⟩ := hs
  rename_i s s' t ts rest ch _
  have hmem : t ∈ t ::ₘ rest := Multiset.mem_cons_self t rest
  have hduty := ha.duty t hmem
  have hframe := step_frame hn
  -- a second call of `open` is nowhere
  have hother : t.caller = 1 → .openStream .startReturn ∉ rest := by
    intro ht hrest
    have hle := (add_le_total (t := t) hrest).trans ha.caller
    rw [ht] at hle
    exact absurd hle (by decide)
  have haccepts := step_accepts hn
  refine ⟨?_, ?_, ?_⟩
  · rcases Multiset.mem_cons.mp hi.cronet with rfl | hrest
    · induction haccepts with
      | same _ _ hcronet => exact Multiset.mem_add.mpr (.inl (Multiset.mem_coe.mpr (hcronet rfl)))
      | starts ht | returns ht => cases ht
    · exact Multiset.mem_add.mpr (.inr hrest)
  · intro hstarting
    induction haccepts with
    | starts _ ht => exact ht
    | returns ht hnot _ =>
      rcases Multiset.mem_add.mp hstarting with hmem' | hmem'
      · exact absurd (Multiset.mem_coe.mp hmem') hnot
      · exact absurd hmem' (hother (by rw [ht]; rfl))
    | same hsame hnot _ =>
      rcases Multiset.mem_add.mp hstarting with hmem' | hmem'
      · exact absurd (Multiset.mem_coe.mp hmem') hnot
      · exact hsame.trans (hi.starting (Multiset.mem_cons_of_mem hmem'))
  · intro hstarted
    induction haccepts with
    | starts _ ht => exact ht
    | returns ht _ htrace =>
      subst ht
      exact absurd (htrace ▸ hstarted) hduty.1
    | same hsame _ _ =>
      rcases hframe.trace with ⟨rfl, -⟩ | ⟨l, htrace, hnot⟩
      · exact hsame.trans (hi.starting hmem)
      · refine hsame.trans (hi.started ?_)
        rw [htrace] at hstarted
        exact (List.mem_append.mp hstarted).resolve_right hnot

theorem nativeInv_reachable (h : Reachable (step cfg) allowed start.config c) : NativeInv c := by
  refine h.invariant nativeInv_init ?_
  intro c c' hr hi hs
  exact nativeInv_step (abandonInv_reachable hr) hi hs

end

end TokioCronet.Bidirectional
