import Mathlib.Data.List.Infix
import TokioCronet.Bidirectional.Flushes

/-!
# The order of writes

A data command is accepted into the queue, taken out by the write loop, put into the
map of writes in flight and handed to the native stream; a completion takes it out of
the map. The loop is the only one to do the middle steps, so what it has in its hand
says which commands have been written; and the native stream completes the writes of
one address in order, so a completion takes out the write it is about.
-/

namespace TokioCronet.Bidirectional

open Pool

variable {cfg : Settings} {s s' : Side} {t u : Thread} {ts : List Thread} {rest : Multiset Thread}

/-- The data commands in the queue. -/
def WriteState.queuedData (w : WriteState) : List InFlightWrite :=
  w.queue.filterMap fun command =>
    match command with
    | .data data eos => some { data := data, endOfStream := eos }
    | .flush _ => none

/-- The buffers at an address. -/
def atPointer (pointer : Nat) (buffers : List Buffer) : List Buffer :=
  buffers.filter (·.pointer == pointer)

/-- The buffers in the map, the oldest first. -/
def WriteState.buffers (w : WriteState) : List Buffer := w.inFlight.map (·.data)

/-- What the position of the write loop says about the commands. -/
def Stage.Sound (s : Side) (g : Stage) : Prop :=
  match g with
  | .unspawned | .idle =>
    s.state.terminal = none → s.accepted = s.written ++ s.state.queuedData
  | .holds write | .writes write => ∃ queued, s.accepted = s.written ++ write :: queued ∧
    (s.state.terminal = none → queued = s.state.queuedData)
  | .stopped => True

/-- What it says about the last writes in flight. -/
def Stage.Tail (pointer : Nat) (tail : List Buffer) (g : Stage) : Prop :=
  match g with
  | .unspawned | .idle | .holds _ => tail = []
  | .writes write => tail = atPointer pointer [write.data]
  | .stopped => True

/-- The writes in flight at an address: those that the native stream has completed, those
that it holds, and one that it does not hold yet. -/
structure Flight (s : Side) (threads : Multiset Thread) (pointer : Nat)
    (gone tail : List Buffer) : Prop where
  /-- The map has what was completed, what the native stream holds, and the one on its way. -/
  split : atPointer pointer s.state.buffers = gone ++ atPointer pointer s.outstanding ++ tail
  /-- What was completed has a callback on its way. -/
  gone : gone.length = total (Thread.completes pointer) threads
  /-- What is on its way is the write loop's. -/
  tail : ∀ t ∈ threads, ∀ g, t.stage = some g → g.Tail pointer tail

/-- The invariants of the order of writes. -/
structure OrderInv (s : Side) (threads : Multiset Thread) : Prop where
  /-- There is one write loop. -/
  loops : total Thread.loops threads ≤ 1
  /-- What was handed over is a beginning of what was accepted. -/
  ordered : s.written <+: s.accepted
  /-- The write loop stands where its command is. -/
  stage : ∀ t ∈ threads, ∀ g, t.stage = some g → g.Sound s
  /-- The end of the stream closes the write side. -/
  closed : ∀ write ∈ s.accepted, write.endOfStream = true → s.state.localClosed = true
  /-- Nothing was accepted behind it. -/
  last : ∀ l write r, s.accepted = l ++ write :: r → write.endOfStream = true → r = []
  /-- The buffers of each address are in order. -/
  flight : ∀ pointer, ∃ gone tail, Flight s threads pointer gone tail

theorem stage_loops {g : Stage} (h : t.stage = some g) : t.loops = 1 := by
  rw [Thread.loops, h]

/-- Beside the write loop no thread has a stage. -/
theorem stage_alone {g : Stage} (h : total Thread.loops (t ::ₘ rest) ≤ 1)
    (ht : t.stage = some g) (hu : u ∈ rest) : u.stage = none := by
  cases hs : u.stage with
  | none => rfl
  | some g' =>
    have hle := add_le_total (w := Thread.loops) (t := t) hu
    rw [stage_loops ht, stage_loops hs] at hle
    omega

/-- What every stage says survives a step: of the write loop itself, or of another
thread that falsifies no stage. -/
theorem stage_step {A B : Stage → Prop} (hl : total Thread.loops (t ::ₘ rest) ≤ 1)
    (h : ∀ u ∈ t ::ₘ rest, ∀ g, u.stage = some g → A g)
    (hown : ∀ u ∈ ts, ∀ g', u.stage = some g' → ∃ g, t.stage = some g ∧ (A g → B g'))
    (hrest : t.stage = none → ∀ g, A g → B g) :
    ∀ u ∈ (ts : Multiset Thread) + rest, ∀ g, u.stage = some g → B g := by
  intro u hu g hg
  rcases Multiset.mem_add.mp hu with hu | hu
  · obtain ⟨g₀, hg₀, himp⟩ := hown u (Multiset.mem_coe.mp hu) g hg
    exact himp (h t (Multiset.mem_cons_self t rest) g₀ hg₀)
  · cases ht : t.stage with
    | none => exact hrest ht g (h u (Multiset.mem_cons_of_mem hu) g hg)
    | some g₀ =>
      rw [stage_alone hl ht hu] at hg
      cases hg

theorem Stage.Moves.sound {g g' : Stage} (h : g.Moves g') (hg : g.Sound s) : g'.Sound s := by
  cases h with
  | stays => exact hg
  | spawned => exact hg
  | stops => trivial

theorem Stage.Moves.tail {g g' : Stage} {pointer : Nat} {tail : List Buffer} (h : g.Moves g')
    (hg : g.Tail pointer tail) : g'.Tail pointer tail := by
  cases h with
  | stays => exact hg
  | spawned => exact hg
  | stops => trivial

theorem Stage.Sound.congr {g : Stage} (h : g.Sound s) (ha : s'.accepted = s.accepted)
    (hw : s'.written = s.written) (ht : s'.state.terminal = s.state.terminal)
    (hq : s'.state.queuedData = s.state.queuedData) : g.Sound s' := by
  unfold Stage.Sound at h ⊢
  rw [ha, hw, ht, hq]
  exact h

theorem own_one {A A' : Stage → Prop} {g g' : Stage} (ht : t.stage = some g)
    (hu : u.stage = some g') (h : A g → A' g') : ∀ v ∈ [u], ∀ g₁, v.stage = some g₁ →
      ∃ g, t.stage = some g ∧ (A g → A' g₁) := by
  intro v hv g₁ hg₁
  rw [List.mem_singleton] at hv
  subst hv
  rw [hu, Option.some.injEq] at hg₁
  subst hg₁
  exact ⟨g, ht, h⟩

theorem own_none {A A' : Stage → Prop} (hts : ∀ u ∈ ts, u.stage = none) :
    ∀ u ∈ ts, ∀ g', u.stage = some g' → ∃ g, t.stage = some g ∧ (A g → A' g') := by
  intro u hu g' hg'
  rw [hts u hu] at hg'
  cases hg'

theorem own_keeps {A A' : Stage → Prop} {n : Nat} (hk : Keeps n t ts)
    (h : ∀ g g', g.Moves g' → A g → A' g') :
    ∀ u ∈ ts, ∀ g', u.stage = some g' → ∃ g, t.stage = some g ∧ (A g → A' g') := by
  intro u hu g' hg'
  obtain ⟨g, hg, hm⟩ := hk.stage u hu g' hg'
  exact ⟨g, hg, h g g' hm⟩

/-- The thread that moves is not the write loop and says nothing new. -/
theorem sound_aside (h : OrderInv s (t ::ₘ rest)) (hts : ∀ u ∈ ts, u.stage = none)
    (ha : s'.accepted = s.accepted) (hw : s'.written = s.written)
    (ht : s'.state.terminal = s.state.terminal) (hq : s'.state.queuedData = s.state.queuedData) :
    ∀ u ∈ (ts : Multiset Thread) + rest, ∀ g, u.stage = some g → g.Sound s' :=
  stage_step h.loops h.stage (own_none hts) fun _ _ hg => hg.congr ha hw ht hq

theorem queuedData_data {w : WriteState} {data : Buffer} {eos : Bool}
    {queue : List WriteCommand} (h : w.queue = WriteCommand.data data eos :: queue) :
    w.queuedData = { data := data, endOfStream := eos } ::
      { w with queue := queue }.queuedData := by
  rw [WriteState.queuedData, h]
  exact List.filterMap_cons_some rfl

theorem queuedData_flush {w : WriteState} {waiter : Waiter} {queue : List WriteCommand}
    (h : w.queue = WriteCommand.flush waiter :: queue) :
    w.queuedData = { w with queue := queue }.queuedData := by
  rw [WriteState.queuedData, h]
  exact List.filterMap_cons_none rfl

theorem queuedData_append {queue : List WriteCommand} {w w' : WriteState}
    (h : w'.queue = w.queue ++ queue) :
    w'.queuedData = w.queuedData ++ { w with queue := queue }.queuedData := by
  rw [WriteState.queuedData, h, List.filterMap_append]
  rfl

theorem remove_queuedData {w : WriteState} {pointer : Nat} :
    (w.remove pointer).queuedData = w.queuedData := by
  unfold WriteState.remove
  split <;> rfl

theorem wake_accepted : s.wake.accepted = s.accepted := by
  unfold Side.wake
  split <;> rfl

theorem wake_written : s.wake.written = s.written := by
  unfold Side.wake
  split <;> rfl

theorem wake_outstanding : s.wake.outstanding = s.outstanding := by
  unfold Side.wake
  split <;> rfl

theorem sound_wake {g : Stage} (h : g.Sound s) : g.Sound s.wake :=
  h.congr wake_accepted wake_written (by rw [wake_state]) (by rw [wake_state])

/-- **Every step keeps what the write loop's position says.** -/
theorem sound_step (h : OrderInv s (t ::ₘ rest)) (hs : SideStep cfg s t ts s') :
    ∀ u ∈ (ts : Multiset Thread) + rest, ∀ g, u.stage = some g → g.Sound s' := by
  induction hs with
  | quiet hk =>
    exact stage_step h.loops h.stage (own_keeps hk fun _ _ hm hg => hm.sound hg)
      fun _ _ hg => hg
  | wake hk =>
    exact stage_step h.loops h.stage (own_keeps hk fun _ _ hm hg => sound_wake (hm.sound hg))
      fun _ _ hg => sound_wake hg
  | popData ht hnone hq hts =>
    subst ht hts
    refine stage_step h.loops h.stage (own_one rfl rfl fun hg => ⟨_, ?_, fun _ => rfl⟩) nofun
    rw [← queuedData_data hq]
    exact hg hnone
  | popFlush ht hnone hq hts =>
    subst ht hts
    refine stage_step h.loops h.stage (own_one rfl rfl fun hg => ?_) nofun
    exact hg.congr rfl rfl rfl (queuedData_flush hq).symm
  | push ht hts =>
    subst ht hts
    exact stage_step h.loops h.stage (own_one rfl rfl fun hg => hg) nofun
  | write ht hts =>
    subst ht hts
    refine stage_step h.loops h.stage (own_one rfl rfl fun hg => ?_) nofun
    obtain ⟨queued, hacc, hqueued⟩ := hg
    intro hnone
    show s.accepted = s.written ++ [_] ++ _
    rw [hacc, hqueued hnone, List.append_assoc]
    rfl
  | writeFails ht hts =>
    subst ht hts
    exact stage_step h.loops h.stage (own_one rfl rfl fun _ => trivial) nofun
  | register ht _ hts =>
    subst ht hts
    exact stage_step h.loops h.stage (own_one rfl rfl fun hg => hg) nofun
  | answers ht =>
    obtain ⟨rfl, rfl⟩ | ⟨e, rfl, rfl⟩ := ht
    · exact stage_step h.loops h.stage (own_one rfl rfl fun hg => hg) nofun
    · exact stage_step h.loops h.stage (own_one rfl rfl fun hg => hg) nofun
  | calls ht _ hts =>
    subst ht hts
    refine sound_aside h ?_ rfl rfl rfl rfl
    exact List.forall_mem_cons.mpr ⟨rfl, List.forall_mem_singleton.mpr rfl⟩
  | complete ht hts _ =>
    subst ht hts
    exact sound_aside h (List.forall_mem_singleton.mpr rfl) rfl rfl remove_terminal
      remove_queuedData
  | @drain who result ht hts =>
    subst ht hts
    have hdrained : ∀ g : Stage, g.Sound s → g.Sound { s with
        state := { s.state with terminal := some result, flushWaiters := [], queue := [] },
        answered := s.answered ++ (s.state.flushWaiters ++ s.state.queuedFlushes) } := by
      intro g hg
      cases g with
      | unspawned | idle => exact nofun
      | holds write | writes write =>
        obtain ⟨queued, hacc, -⟩ := hg
        exact ⟨queued, hacc, nofun⟩
      | stopped => trivial
    cases who with
    | terminal =>
      exact stage_step h.loops h.stage (own_none (List.forall_mem_singleton.mpr rfl))
        fun _ g hg => hdrained g hg
    | writer => exact stage_step h.loops h.stage (own_one rfl rfl (hdrained _)) nofun
  | @accepts op waker ht _ hts =>
    subst ht hts
    refine stage_step h.loops h.stage (own_none (List.forall_mem_singleton.mpr rfl)) ?_
    intro _ g hg
    cases g with
    | unspawned | idle =>
      intro hnone
      rw [queuedData_append (w := s.state) rfl, ← List.append_assoc, ← hg hnone]
      rfl
    | holds write | writes write =>
      obtain ⟨queued, hacc, hqueued⟩ := hg
      refine ⟨queued ++ [{ data := op.data, endOfStream := op.endOfStream }], ?_, fun hnone => ?_⟩
      · show s.accepted ++ [_] = _
        rw [hacc, List.append_assoc]
        rfl
      · rw [queuedData_append (w := s.state) rfl, ← hqueued hnone]
        rfl
    | stopped => trivial
  | begins ht hts | stores ht hts | notifies ht hts | receives ht hts =>
    subst ht hts
    exact sound_aside h (List.forall_mem_singleton.mpr rfl) rfl rfl rfl rfl
  | parks ht _ hts =>
    subst ht hts
    exact sound_aside h (List.forall_mem_singleton.mpr rfl) rfl rfl rfl rfl
  | control ht hts =>
    subst ht hts
    refine sound_aside h (List.forall_mem_singleton.mpr rfl) rfl rfl rfl ?_
    rw [queuedData_append (w := s.state) rfl]
    exact List.append_nil _

/-! ## The map of writes in flight -/

theorem atPointer_append {pointer : Nat} {l l' : List Buffer} :
    atPointer pointer (l ++ l') = atPointer pointer l ++ atPointer pointer l' :=
  List.filter_append _ _

section

variable {α : Type} {p q : α → Bool}

theorem filter_eraseP_self (l : List α) : (l.eraseP p).filter p = (l.filter p).tail := by
  induction l with
  | nil => rfl
  | cons a l ih =>
    by_cases ha : p a = true
    · rw [List.eraseP_cons_of_pos ha, List.filter_cons_of_pos ha]
      rfl
    · rw [List.eraseP_cons_of_neg ha, List.filter_cons_of_neg ha, List.filter_cons_of_neg ha]
      exact ih

theorem filter_eraseP_of_not (h : ∀ a, p a = true → ¬ q a = true) (l : List α) :
    (l.eraseP p).filter q = l.filter q := by
  induction l with
  | nil => rfl
  | cons a l ih =>
    by_cases ha : p a = true
    · rw [List.eraseP_cons_of_pos ha, List.filter_cons_of_neg (h a ha)]
    · rw [List.eraseP_cons_of_neg ha, List.filter_cons, List.filter_cons, ih]

end

/-- The oldest buffer at an address is taken out. -/
theorem atPointer_erase {pointer : Nat} (l : List Buffer) :
    atPointer pointer (l.eraseP (·.pointer == pointer)) = (atPointer pointer l).tail :=
  filter_eraseP_self l

/-- The other addresses keep theirs. -/
theorem atPointer_erase_ne {pointer p : Nat} (hne : p ≠ pointer) (l : List Buffer) :
    atPointer p (l.eraseP (·.pointer == pointer)) = atPointer p l := by
  refine filter_eraseP_of_not ?_ l
  intro b hb hp
  rw [beq_iff_eq] at hb hp
  exact hne (hp.symm.trans hb)

theorem remove_buffers {w : WriteState} {pointer : Nat} :
    (w.remove pointer).buffers = w.buffers.eraseP (·.pointer == pointer) := by
  rw [WriteState.buffers, WriteState.buffers, List.eraseP_map]
  unfold WriteState.remove
  split
  · rfl
  · rename_i hnone
    rw [List.find?_eq_none] at hnone
    exact congrArg _ (List.eraseP_of_forall_not hnone).symm

/-- A step that leaves the writes at an address where they are. -/
theorem flight_same {pointer : Nat} (h : OrderInv s (t ::ₘ rest))
    (hb : s'.state.buffers = s.state.buffers) (ho : s'.outstanding = s.outstanding)
    (hc : (ts.map (Thread.completes pointer)).sum = t.completes pointer)
    (hown : ∀ tail, ∀ u ∈ ts, ∀ g', u.stage = some g' →
      ∃ g, t.stage = some g ∧ (g.Tail pointer tail → g'.Tail pointer tail)) :
    ∃ gone tail, Flight s' (ts + rest) pointer gone tail := by
  obtain ⟨gone, tail, hsplit, hgone, htail⟩ := h.flight pointer
  refine ⟨gone, tail, ?_, ?_, stage_step h.loops htail (hown tail) fun _ _ hg => hg⟩
  · rw [hb, ho]
    exact hsplit
  · rw [hgone, total_cons, total_add, total_coe, hc]

theorem flight_aside {pointer : Nat} (h : OrderInv s (t ::ₘ rest))
    (hts : ∀ u ∈ ts, u.stage = none)
    (hb : s'.state.buffers = s.state.buffers) (ho : s'.outstanding = s.outstanding)
    (hc : (ts.map (Thread.completes pointer)).sum = t.completes pointer) :
    ∃ gone tail, Flight s' (ts + rest) pointer gone tail :=
  flight_same h hb ho hc fun _ => own_none hts

/-- The native stream completes the oldest write that it holds at an address. -/
theorem flight_calls {pointer p : Nat} (h : OrderInv s (.outside .cronet ::ₘ rest))
    (hany : s.outstanding.any (·.pointer == p) = true) :
    ∃ gone tail, Flight { s with outstanding := s.outstanding.eraseP (·.pointer == p) }
      (([.outside .cronet, .callback (.entered (.writeCompleted p))] : List Thread) + rest)
      pointer gone tail := by
  obtain ⟨gone, tail, hsplit, hgone, htail⟩ := h.flight pointer
  have hnone : ∀ u ∈ ([.outside .cronet, .callback (.entered (.writeCompleted p))] : List Thread),
      u.stage = none :=
    List.forall_mem_cons.mpr ⟨rfl, List.forall_mem_singleton.mpr rfl⟩
  have hstage := stage_step (B := Stage.Tail pointer tail) h.loops htail
    (own_none hnone) fun _ _ hg => hg
  rw [total_cons] at hgone
  by_cases hp : p = pointer
  · subst hp
    obtain ⟨b, hb, hbp⟩ := List.any_eq_true.mp hany
    have hmem : b ∈ atPointer p s.outstanding := List.mem_filter.mpr ⟨hb, hbp⟩
    obtain ⟨d, r, hd⟩ := List.exists_cons_of_ne_nil (List.ne_nil_of_mem hmem)
    refine ⟨gone ++ [d], tail, ?_, ?_, hstage⟩
    · show atPointer p s.state.buffers = _ ++ atPointer p (s.outstanding.eraseP _) ++ _
      rw [hsplit, atPointer_erase, hd, List.append_assoc gone [d]]
      rfl
    · rw [List.length_append, hgone, total_add, total_coe]
      simp [Thread.completes]
      omega
  · refine ⟨gone, tail, ?_, ?_, hstage⟩
    · show atPointer pointer s.state.buffers = _ ++ atPointer pointer (s.outstanding.eraseP _) ++ _
      rw [atPointer_erase_ne (Ne.symm hp)]
      exact hsplit
    · rw [hgone, total_add, total_coe]
      simp [Thread.completes, hp]

/-- `complete` takes out a write that the native stream has completed. -/
theorem flight_complete {pointer p : Nat} (h : OrderInv s (.callback (.complete p) ::ₘ rest))
    (hb : s'.state.buffers = (s.state.remove p).buffers) (ho : s'.outstanding = s.outstanding) :
    ∃ gone tail, Flight s' (([.callback .wake] : List Thread) + rest) pointer gone tail := by
  obtain ⟨gone, tail, hsplit, hgone, htail⟩ := h.flight pointer
  have hnone : ∀ u ∈ ([.callback .wake] : List Thread), u.stage = none :=
    List.forall_mem_singleton.mpr rfl
  have hstage := stage_step (B := Stage.Tail pointer tail) h.loops htail
    (own_none hnone) fun _ _ hg => hg
  rw [total_cons] at hgone
  rw [remove_buffers] at hb
  by_cases hp : p = pointer
  · subst hp
    have hone : Thread.completes p (.callback (.complete p)) = 1 := if_pos rfl
    rw [hone] at hgone
    cases gone with
    | nil =>
      rw [List.length_nil] at hgone
      omega
    | cons d gone =>
      refine ⟨gone, tail, ?_, ?_, hstage⟩
      · rw [hb, ho, atPointer_erase, hsplit]
        rfl
      · rw [List.length_cons] at hgone
        rw [total_add, total_coe]
        show _ = 0 + _
        omega
  · have hzero : Thread.completes pointer (.callback (.complete p)) = 0 := if_neg hp
    refine ⟨gone, tail, ?_, ?_, hstage⟩
    · rw [hb, ho, atPointer_erase_ne (Ne.symm hp)]
      exact hsplit
    · rw [hgone, hzero, total_add, total_coe]
      rfl

/-- **Every step keeps the map in order.** -/
theorem flight_step (pointer : Nat) (h : OrderInv s (t ::ₘ rest)) (hs : SideStep cfg s t ts s') :
    ∃ gone tail, Flight s' (ts + rest) pointer gone tail := by
  induction hs with
  | quiet hk =>
    exact flight_same h rfl rfl (hk.completes pointer)
      fun _ => own_keeps hk fun _ _ hm hg => hm.tail hg
  | wake hk =>
    exact flight_same h (by rw [wake_state]) wake_outstanding (hk.completes pointer)
      fun _ => own_keeps hk fun _ _ hm hg => hm.tail hg
  | popData ht _ _ hts | popFlush ht _ _ hts =>
    subst ht hts
    exact flight_same h rfl rfl rfl fun _ => own_one rfl rfl fun hg => hg
  | @push data eos ht hts =>
    subst ht hts
    obtain ⟨gone, tail, hsplit, hgone, htail⟩ := h.flight pointer
    have hnil : tail = [] := htail _ (Multiset.mem_cons_self _ _) _ rfl
    refine ⟨gone, atPointer pointer [data], ?_, ?_, ?_⟩
    · show atPointer pointer (List.map _ (s.state.inFlight ++ [_])) = _
      rw [List.map_append, atPointer_append]
      rw [hnil, List.append_nil] at hsplit
      exact congrArg (· ++ _) hsplit
    · rw [hgone, total_cons, total_add, total_coe]
      rfl
    · exact stage_step h.loops htail (own_one rfl rfl fun _ => rfl) nofun
  | @write data eos ht hts =>
    subst ht hts
    obtain ⟨gone, tail, hsplit, hgone, htail⟩ := h.flight pointer
    have hdata : tail = atPointer pointer [data] := htail _ (Multiset.mem_cons_self _ _) _ rfl
    refine ⟨gone, [], ?_, ?_, ?_⟩
    · show _ = gone ++ atPointer pointer (s.outstanding ++ [data]) ++ []
      rw [List.append_nil, atPointer_append, ← List.append_assoc, ← hdata]
      exact hsplit
    · rw [hgone, total_cons, total_add, total_coe]
      rfl
    · exact stage_step h.loops htail (own_one rfl rfl fun _ => rfl) nofun
  | writeFails ht hts =>
    subst ht hts
    exact flight_same h rfl rfl rfl fun _ => own_one rfl rfl fun _ => trivial
  | register ht _ hts =>
    subst ht hts
    exact flight_same h rfl rfl rfl fun _ => own_one rfl rfl fun hg => hg
  | answers ht =>
    obtain ⟨rfl, rfl⟩ | ⟨e, rfl, rfl⟩ := ht
    · exact flight_same h rfl rfl rfl fun _ => own_one rfl rfl fun hg => hg
    · exact flight_same h rfl rfl rfl fun _ => own_one rfl rfl fun hg => hg
  | @calls p ht hany hts =>
    subst ht hts
    exact flight_calls h hany
  | complete ht hts _ =>
    subst ht hts
    exact flight_complete h rfl rfl
  | @drain who result ht hts =>
    subst ht hts
    cases who with
    | terminal => exact flight_aside h (List.forall_mem_singleton.mpr rfl) rfl rfl rfl
    | writer => exact flight_same h rfl rfl rfl fun _ => own_one rfl rfl fun _ => trivial
  | accepts ht _ hts | parks ht _ hts | begins ht hts | stores ht hts | control ht hts
  | notifies ht hts | receives ht hts =>
    subst ht hts
    exact flight_aside h (List.forall_mem_singleton.mpr rfl) rfl rfl rfl

/-! ## Runs -/

theorem ordered_step (h : OrderInv s (t ::ₘ rest)) (hs : SideStep cfg s t ts s') :
    s'.written <+: s'.accepted := by
  have hmem : t ∈ t ::ₘ rest := Multiset.mem_cons_self t rest
  induction hs with
  | wake hk =>
    rw [wake_written, wake_accepted]
    exact h.ordered
  | write ht hts | writeFails ht hts =>
    subst ht
    -- the command in the hand of the write loop is the next one
    obtain ⟨queued, hacc, -⟩ := h.stage _ hmem _ rfl
    refine ⟨queued, ?_⟩
    show s.written ++ [_] ++ queued = s.accepted
    rw [hacc, List.append_assoc]
    rfl
  | accepts => exact h.ordered.trans (List.prefix_append _ _)
  | _ => exact h.ordered

theorem remove_localClosed {w : WriteState} {pointer : Nat} (h : w.localClosed = true) :
    (w.remove pointer).localClosed = true := by
  unfold WriteState.remove
  split
  · show (w.localClosed || _) = true
    rw [h, Bool.true_or]
  · exact h

theorem closed_step (h : OrderInv s (t ::ₘ rest)) (hs : SideStep cfg s t ts s') :
    ∀ write ∈ s'.accepted, write.endOfStream = true → s'.state.localClosed = true := by
  induction hs with
  | wake hk =>
    rw [wake_accepted, wake_state]
    exact h.closed
  | complete => exact fun write hw heos => remove_localClosed (h.closed write hw heos)
  | @accepts op waker ht hopen hts =>
    intro write hw heos
    rcases List.mem_append.mp hw with hw | hw
    · rw [h.closed write hw heos] at hopen
      cases hopen
    · rw [List.mem_singleton] at hw
      subst hw
      exact heos
  | _ => exact h.closed

theorem last_step (h : OrderInv s (t ::ₘ rest)) (hs : SideStep cfg s t ts s') :
    ∀ l write r, s'.accepted = l ++ write :: r → write.endOfStream = true → r = [] := by
  induction hs with
  | wake hk =>
    rw [wake_accepted]
    exact h.last
  | @accepts op waker ht hopen hts =>
    intro l write r heq heos
    rcases List.eq_nil_or_concat r with rfl | ⟨r', last, rfl⟩
    · rfl
    · -- nothing is accepted after the end of the stream
      have heq' : s.accepted ++ [{ data := op.data, endOfStream := op.endOfStream }] =
          (l ++ write :: r') ++ [last] := by
        rw [List.concat_eq_append] at heq
        rw [List.append_assoc]
        exact heq
      obtain ⟨hacc, -⟩ := List.append_inj' heq' rfl
      have hmem : write ∈ s.accepted := by
        rw [hacc]
        exact List.mem_append_right _ List.mem_cons_self
      rw [h.closed write hmem heos] at hopen
      cases hopen
  | _ => exact h.last

theorem loops_step (h : OrderInv s (t ::ₘ rest)) (hs : SideStep cfg s t ts s') :
    total Thread.loops (ts + rest) ≤ 1 := by
  have hle := h.loops
  rw [total_cons] at hle
  have hts : (ts.map Thread.loops).sum ≤ t.loops := by
    induction hs with
    | quiet hk | wake hk => exact hk.loops
    | popData ht _ _ hts | popFlush ht _ _ hts =>
      subst ht hts
      exact le_rfl
    | accepts ht _ hts | parks ht _ hts | calls ht _ hts | register ht _ hts =>
      subst ht hts
      exact le_rfl
    | answers ht =>
      obtain ⟨rfl, rfl⟩ | ⟨e, rfl, rfl⟩ := ht <;> exact le_rfl
    | @drain who result ht hts =>
      subst ht hts
      cases who <;> exact le_rfl
    | push ht hts | write ht hts | writeFails ht hts | complete ht hts | begins ht hts
    | stores ht hts | control ht hts | notifies ht hts | receives ht hts =>
      subst ht hts
      exact le_rfl
  rw [total_add, total_coe]
  omega

/-- **Every step keeps the writes in order.** -/
theorem orderInv_step (h : OrderInv s (t ::ₘ rest)) (hs : SideStep cfg s t ts s') :
    OrderInv s' (ts + rest) where
  loops := loops_step h hs
  ordered := ordered_step h hs
  stage := sound_step h hs
  closed := closed_step h hs
  last := last_step h hs
  flight := fun pointer => flight_step pointer h hs

theorem orderInv_init : OrderInv (Shared.side {}) start.config.threads where
  loops := by decide
  ordered := List.nil_prefix
  stage := by
    intro t ht g hg
    rw [Listed.config, start, Multiset.mem_coe] at ht
    simp only [List.mem_cons, List.not_mem_nil, or_false] at ht
    rcases ht with rfl | rfl | rfl <;> cases hg
    exact fun _ => rfl
  closed := nofun
  last := by
    intro l write r h
    exact absurd h.symm (List.append_ne_nil_of_right_ne_nil l (List.cons_ne_nil write r))
  flight := by
    intro pointer
    refine ⟨[], [], rfl, rfl, ?_⟩
    intro t ht g hg
    rw [Listed.config, start, Multiset.mem_coe] at ht
    simp only [List.mem_cons, List.not_mem_nil, or_false] at ht
    rcases ht with rfl | rfl | rfl <;> cases hg
    rfl

variable {allowed : Policy Shared Thread Choice} {c : Config Shared Thread}

theorem orderInv_reachable (h : Reachable (step cfg) allowed start.config c) :
    OrderInv c.shared.side c.threads := by
  refine h.invariant (P := fun c => OrderInv c.shared.side c.threads) orderInv_init ?_
  rintro _ _ - hi ⟨-, hn⟩
  exact orderInv_step hi (step_side hn)

/-- What is written, and what is kept for it. -/
structure WritesInOrder (c : Config Shared Thread) : Prop where
  /-- What is handed to the native stream was accepted, in order and once each. -/
  ordered : written c.shared.trace <+: accepted c.shared.trace
  /-- The end of the stream goes with the last command that is accepted. -/
  endOfStream : ∀ l write r, written c.shared.trace = l ++ write :: r →
    write.endOfStream = true → r = [] ∧ accepted c.shared.trace = l ++ [write]
  /-- A buffer is in the map before its native write, beside those that the native stream
  holds. -/
  before : ∀ data eos, .control (.call (.write data eos)) ∈ c.threads →
    atPointer data.pointer (c.shared.native.outstanding ++ [data]) <:+:
      atPointer data.pointer c.shared.write.state.buffers
  /-- It is there until its completion. -/
  held : ∀ pointer, atPointer pointer c.shared.native.outstanding <:+:
    atPointer pointer c.shared.write.state.buffers

/-- **The writes of a stream are made in order and their buffers are kept**, in every
run. -/
theorem writes_in_order (h : Reachable (step cfg) allowed start.config c) : WritesInOrder c := by
  have hi := orderInv_reachable h
  refine ⟨hi.ordered, ?_, ?_, ?_⟩
  · intro l write r heq heos
    obtain ⟨more, hmore⟩ := hi.ordered
    have hacc : c.shared.side.accepted = l ++ write :: (r ++ more) := by
      rw [← hmore, show c.shared.side.written = _ from heq, List.append_assoc]
      rfl
    obtain ⟨rfl, rfl⟩ := List.append_eq_nil_iff.mp (hi.last l write (r ++ more) hacc heos)
    exact ⟨rfl, hacc⟩
  · intro data eos hmem
    obtain ⟨gone, tail, hsplit, -, htail⟩ := hi.flight data.pointer
    have hdata : tail = atPointer data.pointer [data] := htail _ hmem _ rfl
    refine ⟨gone, [], ?_⟩
    rw [atPointer_append, ← hdata, List.append_nil, ← List.append_assoc]
    exact hsplit.symm
  · intro pointer
    obtain ⟨gone, tail, hsplit, -, -⟩ := hi.flight pointer
    exact ⟨gone, tail, hsplit.symm⟩

/-- Two writes are handed over, and the first is completed; a shutdown follows. -/
def shutsDown : Schedule :=
  opens ++ writes ++ writes ++
  [(.outside .cronet, [.callback (.writeCompleted 0)]),
   (.callback (.entered (.writeCompleted 0)), go 3),
   (.stream .idle, .pollShutdown 9 3 :: go 4),
   (.writer .top, go 7 ++ [.result none])]

theorem writes_in_order_shutsDown :
    let c := (Pool.play (step {}) unchecked start shutsDown).config
    written c.shared.trace = [⟨⟨0, [1]⟩, false⟩, ⟨⟨0, [1]⟩, false⟩, ⟨⟨9, []⟩, true⟩] ∧
      WritesInOrder c := by
  refine ⟨by decide +kernel, ?_⟩
  have hreach : Reachable (step {}) (fun _ _ _ => True) start.config
      (Pool.play (step {}) unchecked start shutsDown).config :=
    play_reachable (fun _ _ _ _ => trivial) shutsDown Reachable.start
  exact writes_in_order hreach

end TokioCronet.Bidirectional
