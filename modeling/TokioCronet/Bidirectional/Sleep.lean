import TokioCronet.Bidirectional.Order
import TokioCronet.Bidirectional.Abandoned

/-!
# The sleep of the write loop

`write_loop` creates its `Notified` before it looks at `ready` and at the queue. It sleeps
only when a look has found nothing to do, and whoever gives it something to do afterwards
leaves a permit, calls `notify_waiters`, or is on its way there. It ends only when the write
side is over.
-/

namespace TokioCronet.Bidirectional

open Pool

variable {cfg : Settings} {s s' : Shared} {t u : Thread} {ch : Choice} {ts : List Thread}
  {rest : Multiset Thread}

/-! ## What the write loop is told -/

/-- `notify_one` comes next. -/
def Thread.notifies : Thread → Bool
  | .stream (.notify _) | .stream (.notifyControl _ _) => true
  | _ => false

/-- `on_stream_ready` has called `notify_waiters`. -/
def Thread.announces : Thread → Bool
  | .callback .readySend => true
  | _ => false

/-- There is nothing for the write loop to do, or it has been told; `notifies` tells whether
it is about to be. -/
def Rests (s : Shared) (notifies : Bool) : Prop :=
  s.write.permit = true ∨ s.write.state.terminal ≠ none ∨ s.write.state.queue = [] ∨
    s.write.state.flushBlocked = true ∨ notifies = true

/-- What a step does to what the write loop sleeps on. -/
structure Tells (s : Shared) (t : Thread) (s' : Shared) (ts : List Thread) : Prop where
  /-- Notifications are only added. -/
  epoch : s.write.notifyEpoch ≤ s'.write.notifyEpoch
  /-- `done` is not taken back. -/
  done : s.control.done = true → s'.control.done = true
  /-- Neither is `ready`. -/
  ready : s.write.ready = true → s'.write.ready = true
  /-- The write side stays ended. -/
  terminal : s.write.state.terminal ≠ none → s'.write.state.terminal ≠ none
  /-- The opening of the stream is reported once. -/
  reported : s'.context.ready = s.context.ready ∧
      s'.context.readySender = s.context.readySender ∨
    s.context.readySender = true ∧ s'.context.readySender = false ∧
      (t.announces = true ∨ s'.control.done = true)
  /-- Who says that the stream is ready notifies. -/
  announces : ts.any Thread.announces = true → s.write.notifyEpoch < s'.write.notifyEpoch
  /-- What the write loop may sleep on stays so while others move. -/
  rests : t.stage = none → Rests s t.notifies → Rests s' (ts.any Thread.notifies)

/-- A step that has nothing to do with the write loop. -/
theorem Tells.still (hwrite : s'.write = s.write)
    (hready : s'.context.ready = s.context.ready ∧ s'.context.readySender = s.context.readySender)
    (hdone : s.control.done = true → s'.control.done = true) (ht : t.notifies = false)
    (hannounces : ts.any Thread.announces = false) (hnotifies : ts.any Thread.notifies = false) :
    Tells s t s' ts := by
  refine ⟨?_, hdone, ?_, ?_, .inl hready, ?_, fun _ => ?_⟩
  · rw [hwrite]
  · rw [hwrite]
    exact id
  · rw [hwrite]
    exact id
  · rw [hannounces]
    nofun
  · rw [Rests, Rests, hwrite, ht, hnotifies]
    exact id

theorem after_quiet (op : GatedOp) (e : Option Error) :
    (op.after e).any Thread.announces = false ∧ (op.after e).any Thread.notifies = false := by
  fun_cases GatedOp.after op e <;> exact ⟨rfl, rfl⟩

theorem controlStep_tells {p : Control} (h : controlStep s p ch = some (s', ts)) :
    Tells s (.control p) s' ts := by
  revert h
  fun_cases controlStep s p ch <;> first | exact of_none | apply of_some
  case case26 op e =>
    exact .still rfl ⟨rfl, rfl⟩ id rfl (after_quiet op e).1 (after_quiet op e).2
  all_goals exact .still rfl ⟨rfl, rfl⟩ id rfl rfl rfl

theorem releaseArc_tells : s.releaseArc.write = s.write ∧
    s.releaseArc.context.ready = s.context.ready ∧
    s.releaseArc.context.readySender = s.context.readySender ∧
    s.releaseArc.control = s.control := by
  unfold Shared.releaseArc
  split_ifs <;> exact ⟨rfl, rfl, rfl, rfl⟩

theorem remove_kept (w : WriteState) (pointer : Nat) : (w.remove pointer).terminal = w.terminal ∧
    (w.remove pointer).queue = w.queue ∧ (w.remove pointer).flushBlocked = w.flushBlocked := by
  unfold WriteState.remove
  split <;> exact ⟨rfl, rfl, rfl⟩

/-- `wake_producer` leaves what the write loop sleeps on alone. -/
theorem wake_tells (ht : t.notifies = false) (hannounces : ts.any Thread.announces = false)
    (hnotifies : ts.any Thread.notifies = false) : Tells s t s.wake ts := by
  have hwake : s.wake.write.notifyEpoch = s.write.notifyEpoch ∧
      s.wake.write.ready = s.write.ready ∧ s.wake.write.permit = s.write.permit ∧
      s.wake.write.state = s.write.state ∧ s.wake.context = s.context := by
    unfold Shared.wake
    split <;> exact ⟨rfl, rfl, rfl, rfl, rfl⟩
  obtain ⟨hepoch, hready, hpermit, hstate, hcontext⟩ := hwake
  refine ⟨hepoch.ge, ?_, ?_, ?_, .inl ?_, ?_, fun _ => ?_⟩
  · rw [(wake_kept s).1]
    exact id
  · rw [hready]
    exact id
  · rw [hstate]
    exact id
  · rw [hcontext]
    exact ⟨rfl, rfl⟩
  · rw [hannounces]
    nofun
  · rw [Rests, Rests, hpermit, hstate, ht, hnotifies]
    exact id

theorem callbackStep_tells {p : InCallback} (h : callbackStep cfg s p ch = some (s', ts)) :
    Tells s (.callback p) s' ts := by
  revert h
  fun_cases callbackStep cfg s p ch <;> first | exact of_none | apply of_some
  case case1 c => cases c <;> exact .still rfl ⟨rfl, rfl⟩ id rfl rfl rfl
  case case2 =>
    exact ⟨le_rfl, id, fun _ => rfl, id, .inl ⟨rfl, rfl⟩, Bool.noConfusion, fun _ => id⟩
  case case3 =>
    exact ⟨Nat.le_succ _, id, id, id, .inl ⟨rfl, rfl⟩, fun _ => Nat.lt_succ_self _, fun _ => id⟩
  case case4 hsender =>
    exact ⟨le_rfl, id, id, id, .inr ⟨hsender, rfl, .inl rfl⟩, Bool.noConfusion, fun _ => id⟩
  case case16 pointer _ _ =>
    -- a flush is over: the permit is there
    refine ⟨le_rfl, id, id, ?_, .inl ⟨rfl, rfl⟩, Bool.noConfusion, fun _ _ => .inl rfl⟩
    exact (remove_kept s.write.state pointer).1 ▸ id
  case case17 pointer _ _ =>
    obtain ⟨hterminal, hqueue, hblocked⟩ := remove_kept s.write.state pointer
    refine ⟨le_rfl, id, id, ?_, .inl ⟨rfl, rfl⟩, Bool.noConfusion, fun _ hrests => ?_⟩
    · exact hterminal ▸ id
    · show s.write.permit = true ∨ (s.write.state.remove pointer).terminal ≠ none ∨
        (s.write.state.remove pointer).queue = [] ∨
        (s.write.state.remove pointer).flushBlocked = true ∨ false = true
      rw [hterminal, hqueue, hblocked]
      exact hrests
  case case18 => exact wake_tells rfl rfl rfl
  all_goals exact .still rfl ⟨rfl, rfl⟩ id rfl rfl rfl

theorem terminalStep_tells {p : Terminal} (h : terminalStep s p ch = some (s', ts))
    (ht : ∀ result, p = .ready result → s.control.done = true) :
    Tells s (.terminal p) s' ts := by
  revert h ht
  fun_cases terminalStep s p ch <;> first | exact of_none | (apply of_some; intro ht)
  case case2 => exact .still rfl ⟨rfl, rfl⟩ (fun _ => rfl) rfl rfl rfl
  case case4 result hsender =>
    exact ⟨le_rfl, id, id, id, .inr ⟨hsender, rfl, .inr (ht result rfl)⟩, Bool.noConfusion,
      fun _ => id⟩
  all_goals exact .still rfl ⟨rfl, rfl⟩ id rfl rfl rfl

theorem finishStep_tells {p : Finish} (h : finishStep s p ch = some (s', ts)) :
    Tells s (.finish p) s' ts := by
  revert h
  fun_cases finishStep s p ch <;> first | exact of_none | apply of_some
  case case1 =>
    exact ⟨le_rfl, id, id, fun _ => Option.some_ne_none _, .inl ⟨rfl, rfl⟩, Bool.noConfusion,
      fun _ _ => .inr (.inl (Option.some_ne_none _))⟩
  case case2 => exact wake_tells rfl rfl rfl
  case case3 who result =>
    cases who <;>
      exact ⟨Nat.le_succ _, id, id, id, .inl ⟨rfl, rfl⟩, Bool.noConfusion, fun _ => id⟩

theorem streamStep_tells {p : Stream} (h : streamStep cfg s p ch = some (s', ts)) :
    Tells s (.stream p) s' ts := by
  revert h
  fun_cases streamStep cfg s p ch <;> first | exact of_none | apply of_some
  all_goals first
    | exact .still rfl ⟨rfl, rfl⟩ id rfl rfl rfl
    | exact ⟨le_rfl, id, id, id, .inl ⟨rfl, rfl⟩, Bool.noConfusion, fun _ => id⟩
    | exact ⟨le_rfl, id, id, id, .inl ⟨rfl, rfl⟩, Bool.noConfusion, fun _ _ => .inl rfl⟩
    | exact ⟨le_rfl, id, id, id, .inl ⟨rfl, rfl⟩, Bool.noConfusion,
        fun _ _ => .inr (.inr (.inr (.inr rfl)))⟩

theorem writerStep_tells {p : Writer} (h : writerStep s p ch = some (s', ts)) :
    Tells s (.writer p) s' ts := by
  revert h
  fun_cases writerStep s p ch <;> first | exact of_none | apply of_some
  all_goals
    exact ⟨le_rfl, id, id, id, .inl ⟨rfl, rfl⟩, Bool.noConfusion, fun hstage => by cases hstage⟩

theorem step_tells (h : step cfg s t ch = some (s', ts))
    (ht : ∀ result, t = .terminal (.ready result) → s.control.done = true) :
    Tells s t s' ts := by
  revert h
  cases t <;> simp only [step]
  case control p => exact controlStep_tells
  case callback p => exact callbackStep_tells
  case terminal p => exact fun h => terminalStep_tells h fun result hp => ht result (hp ▸ rfl)
  case finish p => exact finishStep_tells
  case stream p => exact streamStep_tells
  case writer p => exact writerStep_tells
  case outside who =>
    fun_cases outsideStep s who ch <;> intro h
    case case1 c _ =>
      obtain ⟨native, -, heq⟩ := Option.map_eq_some_iff.mp h
      cases heq
      exact .still rfl ⟨rfl, rfl⟩ id rfl rfl rfl
    all_goals
      cases h
      try exact .still rfl ⟨rfl, rfl⟩ id rfl rfl rfl
  case openStream p =>
    fun_cases openStep cfg s p ch <;> first | exact of_none | apply of_some
    all_goals
      exact .still rfl ⟨rfl, rfl⟩ id rfl rfl rfl
  case shutdown p =>
    fun_cases shutdownStep s p ch <;> first | exact of_none | apply of_some
    all_goals
      exact .still rfl ⟨rfl, rfl⟩ id rfl rfl rfl
  case task p =>
    obtain ⟨hwrite, hready, hsender, hcontrol⟩ := releaseArc_tells (s := s)
    fun_cases taskStep cfg s p ch <;> first | exact of_none | apply of_some
    all_goals first
      | exact .still rfl ⟨rfl, rfl⟩ id rfl rfl rfl
      | exact .still hwrite ⟨hready, hsender⟩ (hcontrol ▸ id) rfl rfl rfl
  case cleanup p =>
    obtain ⟨hwrite, hready, hsender, hcontrol⟩ := releaseArc_tells (s := s)
    fun_cases cleanupStep s p ch <;> first | exact of_none | apply of_some
    all_goals first
      | exact .still rfl ⟨rfl, rfl⟩ id rfl rfl rfl
      | exact .still hwrite ⟨hready, hsender⟩ (hcontrol ▸ id) rfl rfl rfl

/-! ## What a thread knows -/

/-- The epoch that the `Notified` of the write loop was created in. -/
def Thread.epoch : Thread → Option Nat
  | .writer (.ready epoch) | .writer (.pop epoch) | .writer (.check epoch)
  | .writer (.park epoch) => some epoch
  | _ => none

/-- The same, once a look has found nothing. -/
def Thread.looked : Thread → Option Nat
  | .writer (.check epoch) | .writer (.park epoch) => some epoch
  | _ => none

/-- The write loop has ended the write side. -/
def GatedOp.stops : GatedOp → Bool
  | .cancel .writer => true
  | _ => false

/-- The write loop is on its way out. -/
def Thread.stops : Thread → Bool
  | .finish (.wake .writer _) | .finish (.notify .writer _) => true
  | .control (.store who) => (GatedOp.cancel who).stops
  | .control (.lock op) | .control (.raw op) | .control (.started op) | .control (.done op)
  | .control (.claim op) | .control (.call op) | .control (.unlock op _) => op.stops
  | _ => false

/-- A terminal callback past its first step. -/
def Thread.terminates : Thread → Bool
  | .terminal (.first _) => false
  | .terminal _ | .finish (.drain .terminal _) | .finish (.wake .terminal _)
  | .finish (.notify .terminal _) => true
  | _ => false

/-- `on_stream_ready` past its first step. -/
def Thread.readies : Thread → Bool
  | .callback .readyNotify | .callback .readySend => true
  | _ => false

/-- The stream in the hands of the application. -/
def Thread.polls : Thread → Bool
  | .stream .closed => false
  | .stream _ => true
  | _ => false

/-- What a thread has seen of the write side is still so. -/
structure Aware (s : Shared) (t : Thread) : Prop where
  /-- The notification it waits behind has been. -/
  epoch : ∀ e, t.epoch = some e → e ≤ s.write.notifyEpoch
  /-- The write side has ended. -/
  stops : t.stops = true → s.write.state.terminal ≠ none
  /-- The terminal callback has run. -/
  terminates : t.terminates = true → s.control.done = true
  /-- The stream is ready. -/
  readies : t.readies = true → s.write.ready = true
  /-- The ready signal was taken. -/
  polls : t.polls = true → s.context.ready = some (.ok ())

/-- The thread has seen nothing of the write side. -/
def Thread.unaware (t : Thread) : Bool :=
  t.epoch.isNone && !t.stops && !t.terminates && !t.readies && !t.polls

theorem aware_of_unaware (h : ts.all Thread.unaware = true) : ∀ u ∈ ts, Aware s u := by
  intro u hu
  have hnone := List.all_eq_true.mp h u hu
  simp only [Thread.unaware, Bool.and_eq_true, Option.isNone_iff_eq_none,
    Bool.not_eq_true'] at hnone
  obtain ⟨⟨⟨⟨hepoch, hstops⟩, hterminates⟩, hreadies⟩, hpolls⟩ := hnone
  refine ⟨?_, ?_, ?_, ?_, ?_⟩
  · rw [hepoch]
    nofun
  · rw [hstops]
    nofun
  · rw [hterminates]
    nofun
  · rw [hreadies]
    nofun
  · rw [hpolls]
    nofun

theorem aware_one (h : Aware s u) : ∀ v ∈ [u], Aware s v := List.forall_mem_singleton.mpr h

theorem step_aware (h : step cfg s t ch = some (s', ts)) (ht : Aware s t) :
    ∀ u ∈ ts, Aware s' u := by
  obtain ⟨hepoch, hstops, hterminates, hreadies, hpolls⟩ := ht
  have hno : ∀ {P : Prop}, false = true → P := Bool.noConfusion
  have hnone : ∀ {P : Nat → Prop} (e), none = some e → P e := fun _ he => by cases he
  revert h
  cases t <;> simp only [step]
  case outside who =>
    fun_cases outsideStep s who ch <;> intro h
    case case1 c _ =>
      obtain ⟨native, -, heq⟩ := Option.map_eq_some_iff.mp h
      cases heq
      exact aware_of_unaware rfl
    all_goals
      cases h
      try exact aware_of_unaware rfl
  case openStream p =>
    fun_cases openStep cfg s p ch <;> first | exact of_none | apply of_some
    case case22 hok =>
      -- the caller gets the stream
      refine List.forall_mem_cons.mpr ⟨?_, List.forall_mem_cons.mpr ⟨?_, ?_⟩⟩
      · exact ⟨hnone, hno, hno, hno, hno⟩
      · exact ⟨hnone, hno, hno, hno, fun _ => hok⟩
      · exact aware_of_unaware rfl
    all_goals exact aware_of_unaware rfl
  case shutdown p =>
    fun_cases shutdownStep s p ch <;> first | exact of_none | apply of_some
    all_goals exact aware_of_unaware rfl
  case control p =>
    fun_cases controlStep s p ch <;> first | exact of_none | apply of_some
    case case26 op e => fun_cases GatedOp.after op e <;> exact aware_of_unaware rfl
    all_goals exact aware_one ⟨hnone, hstops, hno, hno, hno⟩
  case callback p =>
    fun_cases callbackStep cfg s p ch <;> first | exact of_none | apply of_some
    case case1 c => cases c <;> exact aware_of_unaware rfl
    case case2 => exact aware_one ⟨hnone, hno, hno, fun _ => rfl, hno⟩
    case case3 => exact aware_one ⟨hnone, hno, hno, hreadies, hno⟩
    all_goals exact aware_of_unaware rfl
  case terminal p =>
    fun_cases terminalStep s p ch <;> first | exact of_none | apply of_some
    case case2 => exact aware_one ⟨hnone, hno, fun _ => rfl, hno, hno⟩
    all_goals first
      | exact aware_of_unaware rfl
      | exact aware_one ⟨hnone, hno, fun _ => hterminates rfl, hno, hno⟩
      | refine List.forall_mem_cons.mpr ⟨⟨hnone, hno, hno, hno, hno⟩, ?_⟩
        exact aware_one ⟨hnone, hno, fun _ => hterminates rfl, hno, hno⟩
  case finish p =>
    fun_cases finishStep s p ch <;> first | exact of_none | apply of_some
    case case1 who result _ _ =>
      cases who <;> exact aware_one ⟨hnone, fun _ => Option.some_ne_none _, hterminates, hno, hno⟩
    case case2 who result =>
      have hwake : s.wake.write.state = s.write.state := by
        unfold Shared.wake
        split <;> rfl
      refine aware_one ⟨by cases who <;> exact hnone, ?_, ?_, by cases who <;> exact hno,
        by cases who <;> exact hno⟩
      · rw [hwake]
        cases who <;> exact hstops
      · rw [(wake_kept s).1]
        cases who <;> exact hterminates
    case case3 who result =>
      cases who with
      | terminal => exact aware_one ⟨hnone, hno, hterminates, hno, hno⟩
      | writer => exact aware_one ⟨hnone, hstops, hno, hno, hno⟩
  case task p =>
    fun_cases taskStep cfg s p ch <;> first | exact of_none | apply of_some
    all_goals exact aware_of_unaware rfl
  case writer p =>
    fun_cases writerStep s p ch <;> first | exact of_none | apply of_some
    all_goals first
      | exact aware_of_unaware rfl
      | exact aware_one ⟨hepoch, hno, hno, hno, hno⟩
      | exact aware_one ⟨fun e he => (Option.some.inj he).ge, hno, hno, hno, hno⟩
  case stream p =>
    fun_cases streamStep cfg s p ch <;> first | exact of_none | apply of_some
    all_goals first
      | exact aware_of_unaware rfl
      | exact aware_one ⟨hnone, hno, hno, hno, hpolls⟩
  case cleanup p =>
    fun_cases cleanupStep s p ch <;> first | exact of_none | apply of_some
    all_goals exact aware_of_unaware rfl

/-- **What a thread knows survives the steps of the others.** -/
theorem Aware.other (h : Aware s u) (hs : Tells s t s' ts)
    (hsender : s.context.ready ≠ none → s.context.readySender = false) : Aware s' u := by
  refine ⟨?_, ?_, ?_, ?_, ?_⟩
  · intro e he
    exact (h.epoch e he).trans hs.epoch
  · exact fun hstops => hs.terminal (h.stops hstops)
  · exact fun hterminates => hs.done (h.terminates hterminates)
  · exact fun hreadies => hs.ready (h.readies hreadies)
  · intro hpolls
    have hok := h.polls hpolls
    rcases hs.reported with ⟨hkept, -⟩ | ⟨hset, -, -⟩
    · exact hkept.trans hok
    · rw [hsender (by rw [hok]; nofun)] at hset
      cases hset

/-! ## The loop and the adapter -/

theorem loops_still (ha : (ts.map Thread.adapts).sum = t.adapts)
    (hl : (ts.map Thread.loops).sum = t.loops) :
    (ts.map Thread.adapts).sum + t.loops ≤ (ts.map Thread.loops).sum + t.adapts := by
  omega

theorem unlock_loops (op : GatedOp) (e : Option Error) :
    Thread.loops (.control (.unlock op e)) = Thread.loops (.control (.lock op)) := by
  cases op <;> cases e <;> rfl

/-- While the write side is not over, a step leaves a write loop to each adapter. -/
theorem step_loops (h : step cfg s t ch = some (s', ts)) (ht : Aware s t)
    (hnone : s'.write.state.terminal = none) :
    (ts.map Thread.adapts).sum + t.loops ≤ (ts.map Thread.loops).sum + t.adapts := by
  have hstops := ht.stops
  revert h hnone
  cases t <;> simp only [step]
  case outside who =>
    fun_cases outsideStep s who ch <;> intro h hnone
    case case1 c _ =>
      obtain ⟨native, -, heq⟩ := Option.map_eq_some_iff.mp h
      cases heq
      exact loops_still rfl rfl
    all_goals
      cases h
      try exact loops_still rfl rfl
  case openStream p =>
    fun_cases openStep cfg s p ch <;> first | exact of_none | apply of_some
    all_goals
      intro hnone
      exact Nat.le_of_ble_eq_true rfl
  case shutdown p =>
    fun_cases shutdownStep s p ch <;> first | exact of_none | apply of_some
    all_goals
      intro hnone
      exact loops_still rfl rfl
  case control p =>
    fun_cases controlStep s p ch <;> first | exact of_none | (apply of_some; intro hnone)
    case case26 op e =>
      revert hstops
      fun_cases GatedOp.after op e <;> intro hstops <;> first
        | exact Nat.le_of_ble_eq_true rfl
        | exact absurd hnone (hstops rfl)
    all_goals first
      | exact loops_still rfl rfl
      | exact loops_still rfl (unlock_loops _ _)
  case callback p =>
    fun_cases callbackStep cfg s p ch <;> first | exact of_none | (apply of_some; intro hnone)
    case case1 c => cases c <;> exact loops_still rfl rfl
    all_goals exact loops_still rfl rfl
  case terminal p =>
    fun_cases terminalStep s p ch <;> first | exact of_none | apply of_some
    all_goals
      intro hnone
      exact loops_still rfl rfl
  case finish p =>
    fun_cases finishStep s p ch <;> first | exact of_none | (apply of_some; intro hnone)
    case case1 => cases hnone
    case case2 who result => cases who <;> exact loops_still rfl rfl
    case case3 who result => cases who <;> exact loops_still rfl rfl
  case task p =>
    fun_cases taskStep cfg s p ch <;> first | exact of_none | apply of_some
    all_goals
      intro hnone
      exact loops_still rfl rfl
  case writer p =>
    fun_cases writerStep s p ch <;> first | exact of_none | apply of_some
    all_goals
      intro hnone
      first
        | exact loops_still rfl rfl
        | exact absurd hnone (Option.isSome_iff_ne_none.mp ‹_›)
  case stream p =>
    fun_cases streamStep cfg s p ch <;> first | exact of_none | apply of_some
    all_goals
      intro hnone
      exact Nat.le_of_ble_eq_true rfl
  case cleanup p =>
    fun_cases cleanupStep s p ch <;> first | exact of_none | apply of_some
    all_goals
      intro hnone
      exact Nat.le_of_ble_eq_true rfl

/-! ## The write loop looks -/

/-- When the write loop has found nothing: its look was now, or it was then and nothing has
changed. -/
inductive Looks (s : Shared) (t : Thread) (epoch : Nat) : Prop
  | before : t.looked = some epoch → Looks s t epoch
  | unready : t = .writer (.ready epoch) → s.write.ready = false → Looks s t epoch
  | empty : t = .writer (.pop epoch) → Rests s false → Looks s t epoch

theorem not_looked {e : Nat} {p : Prop} (h : (ts.all fun u => u.looked.isNone) = true)
    (hu : u ∈ ts) (hlooked : u.looked = some e) : p := by
  have hnone := List.all_eq_true.mp h u hu
  rw [hlooked] at hnone
  cases hnone

theorem step_looks {e : Nat} (h : step cfg s t ch = some (s', ts)) (hu : u ∈ ts)
    (hlooked : u.looked = some e) : s' = s ∧ ts = [u] ∧ Looks s t e := by
  revert h hu
  cases t <;> simp only [step]
  case writer p =>
    fun_cases writerStep s p ch <;> first | exact of_none | (apply of_some; intro hu)
    case case3 hready =>
      obtain rfl := List.mem_singleton.mp hu
      cases hlooked
      exact ⟨rfl, rfl, .unready rfl (Bool.eq_false_iff.mpr hready)⟩
    case case4 hover =>
      obtain rfl := List.mem_singleton.mp hu
      cases hlooked
      refine ⟨rfl, rfl, .empty rfl ?_⟩
      rcases Bool.or_eq_true_iff.mp hover with hsome | hblocked
      · exact .inr (.inl (Option.isSome_iff_ne_none.mp hsome))
      · exact .inr (.inr (.inr (.inl hblocked)))
    case case5 hempty =>
      obtain rfl := List.mem_singleton.mp hu
      cases hlooked
      exact ⟨rfl, rfl, .empty rfl (.inr (.inr (.inl hempty)))⟩
    case case9 =>
      obtain rfl := List.mem_singleton.mp hu
      exact ⟨rfl, rfl, .before hlooked⟩
    all_goals exact not_looked rfl hu hlooked
  case outside who =>
    fun_cases outsideStep s who ch <;> intro h hu
    case case1 c _ =>
      obtain ⟨native, -, heq⟩ := Option.map_eq_some_iff.mp h
      cases heq
      exact not_looked rfl hu hlooked
    all_goals
      cases h
      try exact not_looked rfl hu hlooked
  case openStream p =>
    fun_cases openStep cfg s p ch <;> first | exact of_none | apply of_some
    all_goals
      intro hu
      exact not_looked rfl hu hlooked
  case shutdown p =>
    fun_cases shutdownStep s p ch <;> first | exact of_none | apply of_some
    all_goals
      intro hu
      exact not_looked rfl hu hlooked
  case control p =>
    fun_cases controlStep s p ch <;> first | exact of_none | (apply of_some; intro hu)
    case case26 op e =>
      revert hu
      fun_cases GatedOp.after op e <;> intro hu <;> exact not_looked rfl hu hlooked
    all_goals exact not_looked rfl hu hlooked
  case callback p =>
    fun_cases callbackStep cfg s p ch <;> first | exact of_none | (apply of_some; intro hu)
    case case1 c => cases c <;> exact not_looked rfl hu hlooked
    all_goals exact not_looked rfl hu hlooked
  case terminal p =>
    fun_cases terminalStep s p ch <;> first | exact of_none | apply of_some
    all_goals
      intro hu
      exact not_looked rfl hu hlooked
  case finish p =>
    fun_cases finishStep s p ch <;> first | exact of_none | (apply of_some; intro hu)
    case case3 who result => cases who <;> exact not_looked rfl hu hlooked
    all_goals exact not_looked rfl hu hlooked
  case task p =>
    fun_cases taskStep cfg s p ch <;> first | exact of_none | apply of_some
    all_goals
      intro hu
      exact not_looked rfl hu hlooked
  case stream p =>
    fun_cases streamStep cfg s p ch <;> first | exact of_none | apply of_some
    all_goals
      intro hu
      exact not_looked rfl hu hlooked
  case cleanup p =>
    fun_cases cleanupStep s p ch <;> first | exact of_none | apply of_some
    all_goals
      intro hu
      exact not_looked rfl hu hlooked

/-! ## The invariant -/

variable {allowed : Policy Shared Thread Choice} {c c' : Config Shared Thread}

/-- The stream is open, as far as `on_stream_ready` says so. -/
def Announced (c : Config Shared Thread) : Prop :=
  c.shared.control.done = false ∧
    (c.shared.context.ready = some (.ok ()) ∨ ∃ u ∈ c.threads, u.announces = true)

/-- There is nothing for the write loop to do, or somebody tells it. -/
def Roused (c : Config Shared Thread) : Prop :=
  Rests c.shared false ∨ ∃ u ∈ c.threads, u.notifies = true

/-- The write loop does not sleep through what it waits for. -/
structure SleepInv (c : Config Shared Thread) : Prop where
  /-- The threads have seen what is so. -/
  aware : ∀ t ∈ c.threads, Aware c.shared t
  /-- The ready sender is used up by the signal. -/
  sender : c.shared.context.ready ≠ none → c.shared.context.readySender = false
  /-- What was announced is so. -/
  ready : Announced c → c.shared.write.ready = true
  /-- An adapter has a write loop, until the write side has ended. -/
  loops : c.shared.write.state.terminal = none →
    total Thread.adapts c.threads ≤ total Thread.loops c.threads
  /-- Who sleeps since the last notification has nothing to do. -/
  sleeps : ∀ t ∈ c.threads, t.looked = some c.shared.write.notifyEpoch → Announced c → Roused c

theorem sleepInv_init : SleepInv start.config where
  aware := by
    intro t ht
    have hall : ∀ u ∈ start.threads, Aware start.shared u := aware_of_unaware rfl
    exact hall t (Multiset.mem_coe.mp ht)
  sender := nofun
  ready := by
    rintro ⟨-, hnone | ⟨u, hu, hannounces⟩⟩
    · cases hnone
    · simp only [start, Listed.config, Multiset.mem_coe, List.mem_cons, List.not_mem_nil,
        or_false] at hu
      rcases hu with rfl | rfl | rfl <;> cases hannounces
  loops := fun _ => by simp [start, Listed.config, Thread.adapts, Thread.loops, Thread.stage]
  sleeps := by
    intro t ht hlooked
    refine not_looked ?_ (Multiset.mem_coe.mp ht) hlooked
    rfl

theorem announced_undone (hs : Tells s t s' ts) (h : s'.control.done = false) :
    s.control.done = false := by
  by_contra hdone
  rw [hs.done (Bool.not_eq_false _ ▸ hdone)] at h
  cases h

/-- A stream that is announced now was announced before, or `notify_waiters` is called now. -/
theorem announced_before (hs : Tells s t s' ts)
    (h : Announced ⟨s', ts + rest⟩) (hsame : s'.write.notifyEpoch = s.write.notifyEpoch) :
    Announced ⟨s, t ::ₘ rest⟩ := by
  obtain ⟨hdone, hor⟩ := h
  refine ⟨announced_undone hs hdone, ?_⟩
  rcases hor with hok | ⟨u, hu, hannounces⟩
  · rcases hs.reported with ⟨hkept, -⟩ | ⟨-, -, hannounces | hset⟩
    · exact .inl (hkept.symm.trans hok)
    · exact .inr ⟨t, Multiset.mem_cons_self t rest, hannounces⟩
    · rw [show s'.control.done = false from hdone] at hset
      cases hset
  · rcases Multiset.mem_add.mp hu with hu | hu
    · have hlt := hs.announces (List.any_eq_true.mpr ⟨u, Multiset.mem_coe.mp hu, hannounces⟩)
      omega
    · exact .inr ⟨u, Multiset.mem_cons_of_mem hu, hannounces⟩

/-- Whoever gives the write loop something to do sees to it that it is told. -/
theorem roused_other (hs : Tells s t s' ts) (ht : t.stage = none)
    (h : Roused ⟨s, t ::ₘ rest⟩) : Roused ⟨s', ts + rest⟩ := by
  have hrests : Rests s t.notifies → Roused ⟨s', ts + rest⟩ := by
    intro hr
    cases hany : ts.any Thread.notifies with
    | false =>
      have hr' := hs.rests ht hr
      rw [hany] at hr'
      exact .inl hr'
    | true =>
      obtain ⟨u, hu, hnotifies⟩ := List.any_eq_true.mp hany
      exact .inr ⟨u, Multiset.mem_add.mpr (.inl (Multiset.mem_coe.mpr hu)), hnotifies⟩
  rcases h with hr | ⟨u, hu, hnotifies⟩
  · refine hrests ?_
    rcases hr with h | h | h | h | h
    · exact .inl h
    · exact .inr (.inl h)
    · exact .inr (.inr (.inl h))
    · exact .inr (.inr (.inr (.inl h)))
    · cases h
  · rcases Multiset.mem_cons.mp hu with rfl | hu
    · exact hrests (.inr (.inr (.inr (.inr hnotifies))))
    · exact .inr ⟨u, Multiset.mem_add.mpr (.inr hu), hnotifies⟩

theorem looked_stage {e : Nat} (h : u.looked = some e) : u.stage = some .idle := by
  unfold Thread.looked at h
  split at h
  · rfl
  · rfl
  · cases h

theorem looked_epoch {e : Nat} (h : u.looked = some e) : u.epoch = some e := by
  unfold Thread.looked at h
  split at h
  · exact h
  · exact h
  · cases h

/-- The stream is announced only once the write side is ready. -/
theorem announced_ready (hs : Tells s t s' ts) (hready : Announced ⟨s, t ::ₘ rest⟩ →
      s.write.ready = true) (ht : Aware s t)
    (haware : ∀ u ∈ (ts : Multiset Thread) + rest, Aware s' u)
    (h : Announced ⟨s', ts + rest⟩) : s'.write.ready = true := by
  obtain ⟨hdone, hok | ⟨u, hu, hannounces⟩⟩ := h
  · rcases hs.reported with ⟨hkept, -⟩ | ⟨-, -, hannounces | hset⟩
    · exact hs.ready (hready ⟨announced_undone hs hdone, .inl (hkept.symm.trans hok)⟩)
    · refine hs.ready (ht.readies ?_)
      revert hannounces
      fun_cases Thread.announces t
      · exact fun _ => rfl
      · nofun
    · rw [show s'.control.done = false from hdone] at hset
      cases hset
  · refine (haware u hu).readies ?_
    revert hannounces
    fun_cases Thread.announces u
    · exact fun _ => rfl
    · nofun

/-- A look of the write loop itself. -/
theorem looks_roused {e : Nat} (hi : SleepInv ⟨s, t ::ₘ rest⟩) (hlooks : Looks s t e)
    (he : e = s.write.notifyEpoch) (h : Announced ⟨s, t ::ₘ rest⟩) : Roused ⟨s, [u] + rest⟩ := by
  have hmem : t ∈ t ::ₘ rest := Multiset.mem_cons_self t rest
  induction hlooks with
  | before hlooked =>
    rcases hi.sleeps t hmem (he ▸ hlooked) h with hrests | ⟨v, hv, hnotifies⟩
    · exact .inl hrests
    · rcases Multiset.mem_cons.mp hv with rfl | hv
      · revert hlooked
        fun_cases Thread.looked v
        · cases hnotifies
        · cases hnotifies
        · nofun
      · exact .inr ⟨v, Multiset.mem_add.mpr (.inr hv), hnotifies⟩
  | unready ht hready =>
    rw [hi.ready h] at hready
    cases hready
  | empty ht hrests => exact .inl hrests

theorem sleepInv_step (ho : total Thread.loops c.threads ≤ 1) (hi : SleepInv c)
    (hs : Step (step cfg) allowed c c') : SleepInv c' := by
  obtain ⟨_, hn⟩ := hs
  rename_i s s' t ts rest ch _
  have hmem : t ∈ t ::ₘ rest := Multiset.mem_cons_self t rest
  have haware := hi.aware t hmem
  have htells : Tells s t s' ts := by
    refine step_tells hn fun result ht => haware.terminates ?_
    rw [ht]
    rfl
  have haware' : ∀ u ∈ (ts : Multiset Thread) + rest, Aware s' u :=
    forall_step hi.aware (fun _ => step_aware hn haware)
      (fun u _ hu => hu.other htells hi.sender)
  refine ⟨haware', ?_, announced_ready htells hi.ready haware haware', ?_, ?_⟩
  · intro hne
    rcases htells.reported with ⟨hkept, hsender⟩ | ⟨-, hsender, -⟩
    · exact hsender.trans (hi.sender (hkept ▸ hne))
    · exact hsender
  · intro hnone
    have hbefore : s.write.state.terminal = none := by
      by_contra hne
      exact htells.terminal hne hnone
    have hle := hi.loops hbefore
    have hstep := step_loops hn haware hnone
    simp only [total_cons] at hle
    simp only [total_add, total_coe]
    omega
  · intro u hu hlooked hannounced
    rcases Multiset.mem_add.mp hu with hu | hu
    · obtain ⟨rfl, rfl, hlooks⟩ := step_looks hn (Multiset.mem_coe.mp hu) hlooked
      exact looks_roused hi hlooks rfl (announced_before htells hannounced rfl)
    · have hle := (hi.aware u (Multiset.mem_cons_of_mem hu)).epoch _ (looked_epoch hlooked)
      have hsame : s'.write.notifyEpoch = s.write.notifyEpoch := le_antisymm hle htells.epoch
      have hstage : t.stage = none := by
        by_contra hsome
        obtain ⟨g, hg⟩ := Option.ne_none_iff_exists'.mp hsome
        have halone := stage_alone ho hg hu
        rw [looked_stage hlooked] at halone
        cases halone
      refine roused_other htells hstage (hi.sleeps u (Multiset.mem_cons_of_mem hu) ?_ ?_)
      · rw [← hsame]
        exact hlooked
      · exact announced_before htells hannounced hsame

theorem sleepInv_reachable (h : Reachable (step cfg) allowed start.config c) : SleepInv c := by
  refine h.invariant sleepInv_init ?_
  intro c c' hr hi hs
  exact sleepInv_step (orderInv_reachable hr).loops hi hs

/-- **The write loop sleeps only when there is nothing for it to do**, in every run: while
the stream is open it has been told of all that the queue holds. -/
theorem asleep_roused (h : Reachable (step cfg) allowed start.config c) {epoch : Nat}
    (ht : .writer (.park epoch) ∈ c.threads) (he : epoch = c.shared.write.notifyEpoch)
    (hopen : Announced c) : Roused c :=
  (sleepInv_reachable h).sleeps _ ht (congrArg some he) hopen

end TokioCronet.Bidirectional
