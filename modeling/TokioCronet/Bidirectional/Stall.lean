import TokioCronet.Bidirectional.Barrier
import TokioCronet.Bidirectional.Completions

/-!
# Waiting for room

A poll of the write half that finds no room returns `Pending` until a write is completed,
and the write loop sees to it that there is one: it hands over what is in the queue, and
then it sleeps. With auto-flush disabled the native stream completes a write only after a
flush, and the write loop flushes only when the adapter has asked for it. An adapter that
waits for room does not ask.
-/

namespace TokioCronet.Bidirectional

open Pool

variable {cfg : Settings} {s s' : Shared} {t u : Thread} {ch : Choice} {ts : List Thread}
  {rest : Multiset Thread} {allowed : Policy Shared Thread Choice} {c : Config Shared Thread}

/-! ## What is promised -/

/-- The `n`-th write is the one that the next completion at an address is for. -/
structure NextAt (tr : List Event) (pointer n : Nat) : Prop where
  /-- It is for that address. -/
  write : ∃ w, (written tr)[n]? = some w ∧ w.data.pointer = pointer
  /-- The completions that came are for the writes before it. -/
  first : writesAt pointer ((written tr).take n) = completionsAt pointer tr

/-- With auto-flush disabled, the native stream completes a write only after the flush was
called later than the write. -/
def CompletesFlushed (cfg : Settings) : Policy Shared Thread Choice := fun c t ch =>
  ∀ pointer, t = .outside .cronet → ch = .callback (.writeCompleted pointer) →
    cfg.disableAutoFlush = true →
    ∃ n, NextAt c.shared.trace pointer n ∧ FlushCalled c.shared.trace (n + 1)

/-- What is relied on of the native stream: it completes what it was asked to flush, and it
reports the headers once and each read once. -/
structure NativeContract (cfg : Settings) (c : Config Shared Thread) (t : Thread) (ch : Choice) :
    Prop where
  /-- Writes are completed behind a flush, if auto-flush is off. -/
  flushed : CompletesFlushed cfg c t ch
  /-- Headers come once, and a completion for each read. -/
  once : ReadsOnce c t ch

/-- The stream is open and has not ended; a poll of the write half has found no room, and
the caller waits for it. -/
structure WaitsForRoom (c : Config Shared Thread) : Prop where
  /-- No terminal callback has run. -/
  running : c.shared.control.done = false
  /-- The write side has not ended. -/
  unfinished : c.shared.write.state.terminal = none
  /-- No poll is running. -/
  idle : .stream .idle ∈ c.threads
  /-- The last one waits to be woken. -/
  parked : c.shared.producer.parked = true

/-- The write loop, from its first step on. -/
def Thread.InLoop (t : Thread) : Prop := ∃ g, t.stage = some g ∧ g ≠ .unspawned

/-- A step towards more room is enabled. -/
inductive MakesRoom (cfg : Settings) (c : Config Shared Thread) : Prop
  /-- A step of the write loop. -/
  | loop {t : Thread} {ch : Choice} : t ∈ c.threads → t.InLoop → step cfg c.shared t ch ≠ none →
      MakesRoom cfg c
  /-- The write loop waits for the gate, and whoever has it can go on. -/
  | gate {op : GatedOp} {t : Thread} {ch : Choice} : .control (.lock op) ∈ c.threads →
      Thread.InLoop (.control (.lock op)) → t ∈ c.threads → t.gate ≠ 0 →
      step cfg c.shared t ch ≠ none → MakesRoom cfg c
  /-- A completion is on its way. -/
  | completion {pointer : Nat} {t : Thread} {ch : Choice} : t ∈ c.threads →
      t.completes pointer ≠ 0 → step cfg c.shared t ch ≠ none → MakesRoom cfg c
  /-- The native stream can complete a write. -/
  | native {pointer : Nat} : .outside .cronet ∈ c.threads →
      NativeContract cfg c (.outside .cronet) (.callback (.writeCompleted pointer)) →
      step cfg c.shared (.outside .cronet) (.callback (.writeCompleted pointer)) ≠ none →
      MakesRoom cfg c

/-- A step towards more room is enabled, or there is room and the caller is told. -/
def RoomComes (cfg : Settings) (c : Config Shared Thread) : Prop :=
  MakesRoom cfg c ∨ c.shared.write.state.full cfg = false ∧
    (c.shared.producer.woken = true ∨ 0 < total Thread.wakes c.threads)

/-- Nobody has asked for the flush that the native stream waits for: auto-flush is disabled,
no command is in the queue and no flush is waiting, the native stream holds every write in
flight, and the write loop sleeps. -/
structure Stalled (cfg : Settings) (c : Config Shared Thread) : Prop where
  /-- Auto-flush is off. -/
  manual : cfg.disableAutoFlush = true
  /-- No command is there to be taken. -/
  empty : c.shared.write.state.queue = []
  /-- No flush waits for completions. -/
  unflushed : c.shared.write.state.flushBlocked = false
  /-- There is no room. -/
  full : c.shared.write.state.full cfg = true
  /-- Everything in flight is with the native stream. -/
  held : c.shared.native.outstanding.length = c.shared.write.state.inFlightCount
  /-- No notification is kept for the write loop. -/
  permit : c.shared.write.permit = false
  /-- The write loop sleeps since the last notification. -/
  asleep : .writer (.park c.shared.write.notifyEpoch) ∈ c.threads

/-! ## The writes that the native stream holds -/

theorem exists_nth {α : Type} {q : α → Bool} {l : List α} {k : Nat} (h : k < l.countP q) :
    ∃ n a, l[n]? = some a ∧ q a = true ∧ (l.take n).countP q = k := by
  induction l generalizing k with
  | nil => cases h
  | cons a l ih =>
    by_cases ha : q a = true
    · cases k with
      | zero => exact ⟨0, a, rfl, ha, rfl⟩
      | succ k =>
        rw [List.countP_cons_of_pos ha] at h
        obtain ⟨n, b, hn, hb, hcount⟩ := ih (Nat.lt_of_succ_lt_succ h)
        refine ⟨n + 1, b, hn, hb, ?_⟩
        rw [List.take_succ_cons, List.countP_cons_of_pos ha, hcount]
    · rw [List.countP_cons_of_neg ha] at h
      obtain ⟨n, b, hn, hb, hcount⟩ := ih h
      refine ⟨n + 1, b, hn, hb, ?_⟩
      rw [List.take_succ_cons, List.countP_cons_of_neg ha, hcount]

theorem nextAt_exists {tr : List Event} {pointer : Nat}
    (h : completionsAt pointer tr < writesAt pointer (written tr)) :
    ∃ n, NextAt tr pointer n ∧ n < (written tr).length := by
  obtain ⟨n, w, hn, hw, hcount⟩ := exists_nth h
  exact ⟨n, ⟨⟨w, hn, beq_iff_eq.mp hw⟩, hcount⟩, (List.getElem?_eq_some_iff.mp hn).1⟩

/-- A write that is completed next has not been completed. -/
theorem NextAt.not_completed {tr : List Event} {pointer n : Nat} (h : NextAt tr pointer n) :
    ¬ Completed tr (n + 1) := by
  intro hcompleted
  obtain ⟨w, hn, hw⟩ := h.write
  have hle := hcompleted.completed pointer
  obtain ⟨hlt, rfl⟩ := List.getElem?_eq_some_iff.mp hn
  rw [List.take_succ_eq_append_getElem hlt, writesAt_append, h.first, writesAt_single, if_pos hw]
    at hle
  omega

theorem count_pointers {pointer : Nat} {l : List Buffer} :
    (l.map (·.pointer)).count pointer = (atPointer pointer l).length := by
  rw [List.count, List.countP_map, atPointer, ← List.countP_eq_length_filter]
  rfl

theorem subperm_pointers {l l' : List Buffer}
    (h : ∀ p, (atPointer p l).length ≤ (atPointer p l').length) :
    (l.map (·.pointer)).Subperm (l'.map (·.pointer)) := by
  refine List.subperm_ext_iff.mpr ?_
  intro p _
  rw [count_pointers, count_pointers]
  exact h p

/-- While the write loop is between two commands, the writes in flight are those that the
native stream holds and those whose completion is on its way. -/
theorem idle_flight (h : Reachable (step cfg) allowed start.config c) (ht : t ∈ c.threads)
    (hidle : t.stage = some .idle) (pointer : Nat) :
    (atPointer pointer c.shared.write.state.buffers).length =
      total (Thread.completes pointer) c.threads +
        (atPointer pointer c.shared.native.outstanding).length := by
  obtain ⟨gone, tail, hsplit, hgone, htail⟩ := (orderInv_reachable h).flight pointer
  have hnil : tail = [] := htail t ht _ hidle
  rw [hnil, List.append_nil] at hsplit
  rw [← hgone, ← List.length_append]
  exact congrArg List.length hsplit

theorem buffers_length (h : Reachable (step cfg) allowed start.config c) :
    c.shared.write.state.buffers.length = c.shared.write.state.inFlightCount := by
  rw [WriteState.buffers, List.length_map]
  exact (ledgerInv_reachable h).count.symm

/-- The native stream holds every write in flight when no completion is on its way. -/
theorem held_iff (h : Reachable (step cfg) allowed start.config c) (ht : t ∈ c.threads)
    (hidle : t.stage = some .idle) :
    c.shared.native.outstanding.length = c.shared.write.state.inFlightCount ↔
      ∀ pointer, total (Thread.completes pointer) c.threads = 0 := by
  have hsub : (c.shared.native.outstanding.map (·.pointer)).Subperm
      (c.shared.write.state.buffers.map (·.pointer)) := by
    refine subperm_pointers ?_
    intro p
    rw [idle_flight h ht hidle p]
    exact Nat.le_add_left _ _
  rw [← buffers_length h]
  constructor
  · intro hlen pointer
    have hperm : (c.shared.native.outstanding.map (·.pointer)).Perm
        (c.shared.write.state.buffers.map (·.pointer)) := by
      refine hsub.perm_of_length_le ?_
      rw [List.length_map, List.length_map]
      exact hlen.ge
    have hcount := hperm.count_eq pointer
    rw [count_pointers, count_pointers, idle_flight h ht hidle pointer] at hcount
    omega
  · intro hzero
    have hback : (c.shared.write.state.buffers.map (·.pointer)).Subperm
        (c.shared.native.outstanding.map (·.pointer)) := by
      refine subperm_pointers ?_
      intro p
      rw [idle_flight h ht hidle p, hzero p]
      exact (Nat.zero_add _).le
    have hle := hsub.length_le
    have hge := hback.length_le
    rw [List.length_map, List.length_map] at hle hge
    exact le_antisymm hle hge

/-! ## The write loop goes on -/

/-- There is one write loop. -/
theorem loop_unique {g g' : Stage} (h : Reachable (step cfg) allowed start.config c)
    (ht : t ∈ c.threads) (hg : t.stage = some g) (hu : u ∈ c.threads) (hg' : u.stage = some g') :
    u = t := by
  by_contra hne
  have hle := (add_le_total_of_ne (w := Thread.loops) ht hu hne).trans (orderInv_reachable h).loops
  rw [stage_loops hg, stage_loops hg'] at hle
  omega

theorem unspawned_caller (h : t.stage = some .unspawned) : t.caller = 1 := by
  have hop : ∀ op : GatedOp, op.stage = some .unspawned → op.caller = 1 := by
    intro op
    fun_cases GatedOp.stage op
    case case4 => exact fun _ => rfl
    all_goals nofun
  revert h
  fun_cases Thread.stage t <;> intro h
  case case4 p _ _ hreturned =>
    cases p with
    | returned result => exact absurd rfl (hreturned result)
    | _ => rfl
  all_goals first
    | exact hop _ h
    | cases h

/-- A stream in the hands of the application has a write loop. -/
theorem loop_exists (h : Reachable (step cfg) allowed start.config c) (hw : WaitsForRoom c) :
    ∃ t ∈ c.threads, t.InLoop := by
  have hloops := (sleepInv_reachable h).loops hw.unfinished
  have hadapts : 1 ≤ total Thread.adapts c.threads := le_total (w := Thread.adapts) hw.idle
  have hpos : total Thread.loops c.threads ≠ 0 := by omega
  obtain ⟨t, ht, hloop⟩ := exists_of_total_ne hpos
  cases hg : t.stage with
  | none =>
    rw [Thread.loops, hg] at hloop
    exact absurd rfl hloop
  | some g =>
    refine ⟨t, ht, g, hg, ?_⟩
    rintro rfl
    -- the call of `open` is over
    have hne : t ≠ .stream .idle := by
      rintro rfl
      cases hg
    have hle := (add_le_total_of_ne (w := Thread.caller) hw.idle ht hne).trans
      (abandonInv_reachable h).caller
    rw [unspawned_caller hg] at hle
    exact absurd hle (by decide)

variable (cfg) in
/-- The write loop can go on, or it waits for the gate, or it sleeps. -/
theorem loop_goes (ht : t.InLoop) (hduty : Duty s t) :
    (∃ ch, step cfg s t ch ≠ none) ∨ (∃ op, t = .control (.lock op)) ∨
      t = .writer (.park s.write.notifyEpoch) ∧ s.write.permit = false := by
  obtain ⟨g, hg, hspawned⟩ := ht
  cases t with
  | control p =>
    cases p with
    | lock op => exact .inr (.inl ⟨op, rfl⟩)
    | store who => exact .inl ⟨.go, Option.some_ne_none _⟩
    | claim op =>
      obtain ⟨sender, rfl⟩ := hduty
      cases hg
    | call op =>
      left
      cases op with
      | write data eos => exact ⟨.result none, Option.some_ne_none _⟩
      | flush waiter => exact ⟨.go, Option.some_ne_none _⟩
      | cancel who => exact ⟨.go, Option.some_ne_none _⟩
      | startRead sender => cases hg
    | raw op | done op =>
      refine .inl ⟨.go, ?_⟩
      cases op <;> simp only [step, controlStep] <;> split_ifs <;> exact Option.some_ne_none _
    | started op =>
      refine .inl ⟨.go, ?_⟩
      simp only [step, controlStep]
      split_ifs <;> exact Option.some_ne_none _
    | unlock op e => exact .inl ⟨.go, Option.some_ne_none _⟩
  | finish p => cases p <;> exact .inl ⟨.go, Option.some_ne_none _⟩
  | openStream p =>
    cases p with
    | ready | close | returned => cases hg
    | _ =>
      cases hg
      exact absurd rfl hspawned
  | writer p =>
    cases p with
    | park epoch =>
      by_cases hsame : s.write.notifyEpoch = epoch
      · subst hsame
        cases hpermit : s.write.permit with
        | false => exact .inr (.inr ⟨rfl, rfl⟩)
        | true =>
          refine .inl ⟨.go, ?_⟩
          rw [step, writerStep, if_pos rfl, hpermit, if_pos rfl]
          exact Option.some_ne_none _
      · refine .inl ⟨.go, ?_⟩
        rw [step, writerStep, if_neg hsame]
        exact Option.some_ne_none _
    | top | push | refuse => exact .inl ⟨.go, Option.some_ne_none _⟩
    | ready epoch | check epoch | register waiter =>
      refine .inl ⟨.go, ?_⟩
      simp only [step, writerStep]
      split_ifs <;> exact Option.some_ne_none _
    | pop epoch =>
      refine .inl ⟨.go, ?_⟩
      simp only [step, writerStep]
      split_ifs
      · exact Option.some_ne_none _
      · split <;> exact Option.some_ne_none _
  | _ => cases hg

/-! ## The write loop sleeps -/

/-- The write side has not ended, so every poll has looked in time. -/
theorem reachable_inTime (h : Reachable (step cfg) allowed start.config c)
    (hnone : c.shared.write.state.terminal = none) :
    Reachable (step cfg) (RechecksInTime cfg) start.config c := by
  induction h with
  | refl => exact Reachable.start
  | tail hr hs ih =>
    obtain ⟨_, hn⟩ := hs
    rename_i s s' t ts rest ch _
    have haware := (sleepInv_reachable hr).aware t (Multiset.mem_cons_self t rest)
    have htells : Tells s t s' ts := by
      refine step_tells hn fun result ht => haware.terminates ?_
      rw [ht]
      rfl
    have hbefore : s.write.state.terminal = none := by
      by_contra hsome
      exact htells.terminal hsome hnone
    refine (ih hbefore).tail (.run ?_ hn)
    intro op waker _ _ hsome
    rw [show s.write.state.terminal = none from hbefore] at hsome
    cases hsome

/-- While the write loop sleeps it has no command in its hand. -/
theorem asleep_hand {epoch : Nat} (h : Reachable (step cfg) allowed start.config c)
    (ht : .writer (.park epoch) ∈ c.threads) : total Thread.hand c.threads = 0 := by
  refine total_eq_zero.mpr ?_
  intro u hu
  cases hg : u.stage with
  | none => rw [Thread.hand, hg]
  | some g =>
    obtain rfl := loop_unique h ht rfl hu hg
    rfl

/-- The native stream completes a write that it holds, once it was flushed. -/
theorem native_goes (h : Reachable (step cfg) allowed start.config c) (hw : WaitsForRoom c)
    (hheld : c.shared.native.outstanding ≠ [])
    (hflushed : cfg.disableAutoFlush = true →
      FlushCalled c.shared.trace (written c.shared.trace).length) : MakesRoom cfg c := by
  have hnative := nativeInv_reachable h
  have hstarted : .started ∈ c.shared.trace := ((abandonInv_reachable h).duty _ hw.idle).1
  obtain ⟨b, hb⟩ := List.exists_mem_of_ne_nil _ hheld
  have hany : c.shared.native.outstanding.any (·.pointer == b.pointer) = true :=
    List.any_eq_true.mpr ⟨b, hb, beq_self_eq_true _⟩
  refine @MakesRoom.native cfg c b.pointer hnative.cronet ⟨?_, nofun, nofun⟩ ?_
  · intro pointer _ hch hmanual
    obtain rfl : b.pointer = pointer := by
      rw [Choice.callback.injEq, Callback.writeCompleted.injEq] at hch
      exact hch
    have hpos : 0 < (atPointer b.pointer c.shared.side.outstanding).length :=
      List.length_pos_of_mem (List.mem_filter.mpr ⟨hb, beq_self_eq_true _⟩)
    have hledger := delivered_reachable h b.pointer
    rw [show c.shared.flow.trace = c.shared.trace.filter Event.flows from rfl,
      completionsAt_flows] at hledger
    have hlt : completionsAt b.pointer c.shared.trace <
        writesAt b.pointer (written c.shared.trace) :=
      Nat.lt_of_lt_of_le (Nat.lt_add_of_pos_left hpos) hledger
    obtain ⟨n, hnext, hn⟩ := nextAt_exists hlt
    exact ⟨n, hnext, (hflushed hmanual).le hn⟩
  · rw [step, outsideStep, if_pos (hnative.started hstarted), Native.call, if_pos hany]
    exact Option.some_ne_none _

/-- A completion that is on its way goes on. -/
theorem completion_goes {pointer : Nat} (h : t.completes pointer ≠ 0) :
    step cfg s t .go ≠ none := by
  revert h
  fun_cases Thread.completes pointer t <;> intro h
  all_goals first
    | exact absurd rfl h
    | skip
  · exact Option.some_ne_none _
  · rw [step, callbackStep]
    split_ifs <;> exact Option.some_ne_none _

/-- While the write loop sleeps it waits for a command, or for the writes before a flush. -/
theorem asleep_rests (h : Reachable (step cfg) allowed start.config c) (hw : WaitsForRoom c)
    (hasleep : .writer (.park c.shared.write.notifyEpoch) ∈ c.threads)
    (hpermit : c.shared.write.permit = false) :
    c.shared.write.state.queue = [] ∨ c.shared.write.state.flushBlocked = true := by
  have hok := ((sleepInv_reachable h).aware _ hw.idle).polls rfl
  rcases asleep_roused h hasleep rfl ⟨hw.running, .inl hok⟩ with hrests | ⟨u, hu, hnotifies⟩
  · rcases hrests with hset | hset | hset | hset | hset
    · rw [hpermit] at hset
      cases hset
    · exact absurd hw.unfinished hset
    · exact .inl hset
    · exact .inr hset
    · cases hset
  · -- only the adapter notifies, and it is idle
    have hne : u ≠ .stream .idle := by
      rintro rfl
      cases hnotifies
    have hone : u.adapts = 1 := by
      revert hnotifies
      fun_cases Thread.notifies u
      case case3 => nofun
      all_goals exact fun _ => rfl
    have hle := (add_le_total_of_ne (w := Thread.adapts) hw.idle hu hne).trans
      (adapts_reachable h)
    rw [hone] at hle
    exact absurd hle (by decide)

/-- The write loop sleeps, the queue is full and the native stream holds every write. -/
theorem held_goes (hcap : 0 < cfg.writeCapacity)
    (h : Reachable (step cfg) allowed start.config c) (hw : WaitsForRoom c)
    (hasleep : .writer (.park c.shared.write.notifyEpoch) ∈ c.threads)
    (hpermit : c.shared.write.permit = false) (hfull : c.shared.write.state.full cfg = true)
    (hheld : c.shared.native.outstanding.length = c.shared.write.state.inFlightCount)
    (hnot : ¬ Stalled cfg c) : MakesRoom cfg c := by
  have hrests := asleep_rests h hw hasleep hpermit
  have hbarred := (barred_reachable h).blocked hw.unfinished
  have hpos : c.shared.write.state.inFlightCount ≠ 0 := by
    rcases hrests with hempty | hblocked
    · have hle : cfg.writeCapacity ≤ c.shared.write.state.queueDataCount +
          c.shared.write.state.inFlightCount := of_decide_eq_true hfull
      have hzero : c.shared.write.state.queueDataCount = 0 := by
        rw [WriteState.queueDataCount, hempty]
        rfl
      omega
    · exact (hbarred hblocked).2.1
  refine native_goes h hw ?_ ?_
  · intro hnil
    rw [hnil] at hheld
    exact hpos hheld.symm
  · intro hmanual
    cases hblocked : c.shared.write.state.flushBlocked with
    | true =>
      have hcalled := (hbarred hblocked).1
      rw [show c.shared.flow.trace = c.shared.trace.filter Event.flows from rfl, written_flows]
        at hcalled
      exact flushCalled_flows.mp hcalled
    | false =>
      have hempty := hrests.resolve_right (Bool.eq_false_iff.mp hblocked)
      exact absurd ⟨hmanual, hempty, hblocked, hfull, hheld, hpermit, hasleep⟩ hnot

/-- The write loop sleeps, and still room comes. -/
theorem asleep_room (hcap : 0 < cfg.writeCapacity)
    (h : Reachable (step cfg) allowed start.config c) (hw : WaitsForRoom c)
    (hasleep : .writer (.park c.shared.write.notifyEpoch) ∈ c.threads)
    (hpermit : c.shared.write.permit = false) (hnot : ¬ Stalled cfg c) : RoomComes cfg c := by
  cases hfull : c.shared.write.state.full cfg with
  | false =>
    -- there is room, and the producer was told of it
    refine .inr ⟨hfull, ?_⟩
    have hwake := wakeInv_reachable (reachable_inTime h hw.unfinished)
    rcases hwake.parked hw.parked with hwoken | ⟨-, ⟨-, hfullWith⟩ | hpos⟩
    · exact .inl hwoken
    · rw [Side.FullWith, asleep_hand h hasleep, Nat.add_zero] at hfullWith
      exact absurd (decide_eq_true hfullWith) (Bool.eq_false_iff.mp hfull)
    · exact .inr hpos
  | true =>
    left
    by_cases hheld : c.shared.native.outstanding.length = c.shared.write.state.inFlightCount
    · exact held_goes hcap h hw hasleep hpermit hfull hheld hnot
    · -- a completion is on its way
      obtain ⟨p, hp⟩ := not_forall.mp fun hall => hheld ((held_iff h hasleep rfl).mpr hall)
      obtain ⟨u, hu, hcompletes⟩ := exists_of_total_ne hp
      exact .completion hu hcompletes (completion_goes hcompletes)

/-- A stalled stream makes no room. -/
theorem Stalled.stuck (h : Reachable (step cfg) allowed start.config c) (hw : WaitsForRoom c)
    (hs : Stalled cfg c) : ¬ RoomComes cfg c := by
  have halone : ∀ u ∈ c.threads, u.InLoop → u = .writer (.park c.shared.write.notifyEpoch) :=
    fun u hu ⟨_, hg, _⟩ => loop_unique h hs.asleep rfl hu hg
  rintro (hroom | ⟨hfull, -⟩)
  · cases hroom with
    | @loop t ch ht hloop hgo =>
      obtain rfl := halone t ht hloop
      refine hgo ?_
      cases ch with
      | go => rw [step, writerStep, if_pos rfl, hs.permit, if_neg Bool.false_ne_true]
      | _ => rfl
    | gate hlock hloop => cases halone _ hlock hloop
    | @completion p t ch ht hcompletes _ =>
      exact hcompletes (total_eq_zero.mp ((held_iff h hs.asleep rfl).mp hs.held p) t ht)
    | @native p _ hallowed _ =>
      obtain ⟨n, hnext, hcalled⟩ := hallowed.flushed p rfl rfl hs.manual
      -- what was flushed has been completed
      refine hnext.not_completed (completed_flows.mp ?_)
      refine (barred_reachable h).settled hw.unfinished hs.unflushed ?_ _
        (flushCalled_flows.mpr hcalled)
      intro u hu w hcarries
      rcases carries_register hcarries with rfl | rfl <;>
        cases loop_unique h hs.asleep rfl hu rfl
  · rw [hs.full] at hfull
    cases hfull

/-- **A call that waits for room is never stuck**, in every run of a native stream that
completes what it was asked to flush and reports each read once, unless nobody has asked. -/
theorem room_comes (hcap : 0 < cfg.writeCapacity)
    (h : Reachable (step cfg) (NativeContract cfg) start.config c) (hw : WaitsForRoom c) :
    RoomComes cfg c ↔ ¬ Stalled cfg c := by
  constructor
  · intro hroom hs
    exact hs.stuck h hw hroom
  · intro hnot
    obtain ⟨t, ht, hloop⟩ := loop_exists h hw
    rcases loop_goes cfg hloop ((abandonInv_reachable h).duty t ht) with
      ⟨ch, hgo⟩ | ⟨op, rfl⟩ | ⟨rfl, hpermit⟩
    · exact .inl (.loop ht hloop hgo)
    · by_cases hlocked : c.shared.control.gate = true
      · obtain ⟨u, hu, hgate, ch, hgo⟩ :=
          locked_goes (h.mono fun _ _ _ => NativeContract.once) hlocked
        exact .inl (.gate ht hloop hu hgate hgo)
      · have hgo : step cfg c.shared (.control (.lock op)) .go ≠ none := by
          rw [step, controlStep, if_neg hlocked]
          exact Option.some_ne_none _
        exact .inl (.loop ht hloop hgo)
    · exact asleep_room hcap h hw ht hpermit hnot

/-! ## Runs -/

/-- The native stream completes nothing, and no headers have come. -/
def completesNothing (_ : Listed Shared Thread) (_ : Thread) (ch : Choice) : Bool :=
  match ch with
  | .callback (.writeCompleted _) | .callback (.readCompleted _ _)
  | .callback (.responseHeaders _) => false
  | _ => true

theorem completesNothing_sound (c : Listed Shared Thread) (t : Thread) (ch : Choice)
    (h : completesNothing c t ch = true) : NativeContract cfg c.config t ch := by
  refine ⟨?_, ?_, ?_⟩
  · rintro pointer - rfl
    cases h
  · rintro headers rfl
    cases h
  · rintro n content rfl
    cases h

/-- A flush is under way when the queue fills up again. -/
def flushesFirst : Schedule :=
  opens ++ writes ++
  [(.stream .idle, .pollFlush :: go 3),
   (.writer .top, go 9),
   (.stream .idle, .pollWrite [2] 1 3 :: go 2),
   (.stream .idle, .pollWrite [3] 2 3 :: go 3)]

theorem room_comes_flushed :
    let cfg : Settings := { writeCapacity := 2, disableAutoFlush := true }
    let c := (Pool.play (step cfg) completesNothing start flushesFirst).config
    0 < cfg.writeCapacity ∧ WaitsForRoom c ∧ RoomComes cfg c := by
  intro cfg c
  have hreach : Reachable (step cfg) (NativeContract cfg) start.config c :=
    play_reachable completesNothing_sound flushesFirst Reachable.start
  have hwaits : WaitsForRoom c :=
    ⟨by decide +kernel, by decide +kernel, by decide +kernel, by decide +kernel⟩
  have hblocked : c.shared.write.state.flushBlocked = true := by decide +kernel
  refine ⟨Nat.zero_lt_two, hwaits, (room_comes Nat.zero_lt_two hreach hwaits).mpr ?_⟩
  intro hs
  rw [hs.unflushed] at hblocked
  cases hblocked

/-- The queue is full, and `poll_shutdown` waits for room without its flush. -/
def shutsDownFull : Schedule :=
  opens ++ writes ++
  [(.stream .idle, .pollShutdown 9 3 :: go 3),
   (.writer .top, go 9)]

theorem room_stalled :
    let cfg : Settings := { writeCapacity := 1, disableAutoFlush := true }
    ∃ c, Reachable (step cfg) (NativeContract cfg) start.config c ∧ WaitsForRoom c ∧
      .polled .shutdown .pending ∈ c.shared.trace ∧ ¬ RoomComes cfg c := by
  intro cfg
  let c := (Pool.play (step cfg) completesNothing start shutsDownFull).config
  have hreach : Reachable (step cfg) (NativeContract cfg) start.config c :=
    play_reachable completesNothing_sound shutsDownFull Reachable.start
  have hwaits : WaitsForRoom c :=
    ⟨by decide +kernel, by decide +kernel, by decide +kernel, by decide +kernel⟩
  have hstalled : Stalled cfg c :=
    ⟨rfl, by decide +kernel, by decide +kernel, by decide +kernel, by decide +kernel,
      by decide +kernel, by decide +kernel⟩
  exact ⟨c, hreach, hwaits, by decide +kernel, hstalled.stuck hreach hwaits⟩

end TokioCronet.Bidirectional
