import TokioCronet.Lib.Ghost
import TokioCronet.Bidirectional.Sleep

/-!
# The first failure

A failure is recorded in one of two places that know nothing of each other. The read path
leaves its error in `pending_error`, where the first one stays, and the terminal callback
takes it from there; the write loop leaves its own in the write side, and cancels. The
terminal callback then publishes what it has taken, and it ends the write side with it.
-/

namespace TokioCronet.Bidirectional

open Pool

variable {cfg : Settings} {s s' : Shared} {t u : Thread} {ch : Choice} {ts : List Thread}

/-! ## What has been recorded -/

/-- What a run has recorded: its first failure, and what the terminal callback has taken. -/
structure Failures where
  first : Option Error := none
  verdict : Option (Result Unit) := none
  deriving DecidableEq

/-- The failure that a step records: the read path's, the write loop's, or the terminal
callback's own. -/
def Shared.failure (s : Shared) : Thread → Option Error
  | .task (.record _ e) | .writer (.refuse _ e) | .finish (.drain .writer (.error e)) => some e
  | .terminal (.take fallback) => s.context.pendingError.or fallback
  | _ => none

/-- What the terminal callback takes in a step. -/
def Shared.taken (s : Shared) : Thread → Option (Result Unit)
  | .terminal (.take fallback) => some (Terminal.result (s.context.pendingError.or fallback))
  | _ => none

/-- One step is noted: the first failure and the first verdict are kept. -/
def Failures.note (g : Failures) (s : Shared) (t : Thread) : Failures where
  first := g.first.or (s.failure t)
  verdict := g.verdict.or (s.taken t)

/-- The program, and what it has recorded. -/
abbrev noted (cfg : Settings) : Program (Shared × Failures) Thread Choice :=
  ghost Failures.note (step cfg)

/-- `open` is called, and nothing has failed. -/
def startNoted : Listed (Shared × Failures) Thread := ⟨(start.shared, {}), start.threads⟩

/-! ## What is reported -/

/-- A published result says what failed first, or that nothing did. -/
def Says {α : Type} (first : Option Error) : Option (Result α) → Prop
  | none => True
  | some (.ok _) => first = none
  | some (.error e) => first = some e

/-- The first failure is what everybody is told. -/
structure FirstReported (cfg : Settings) (s : Shared) (first : Option Error) : Prop where
  /-- `finished()`. -/
  finished : Says first s.context.terminal
  /-- `response_headers()`, unless the headers have come. -/
  headers : ∀ r, s.context.headers = some r → Says first (some r) ∨
    ∃ h, r = .ok h ∧ .callbackBegun (.responseHeaders h) ∈ s.trace
  /-- `trailers()`, unless they have come. -/
  trailers : ∀ r, s.context.trailers = some r → Says first (some r) ∨
    ∃ l, r = .ok l ∧ .callbackBegun (.responseTrailers l) ∈ s.trace
  /-- The read side. -/
  reads : ∀ e, .error e ∈ s.channel.queue ∨ .chunk (some (.error e)) ∈ s.trace → first = some e
  /-- `WriteState::terminal`. -/
  write : Says first s.write.state.terminal
  /-- A poll of the write half that fails. -/
  polls : ∀ p ch s' ts op e, step cfg s (.stream p) ch = some (s', ts) →
    s'.trace = s.trace ++ [.polled op (.failed e)] →
    first = some e ∨ s.write.state.localClosed = true ∧ e = .canceled
  /-- Once the write side has ended they all fail. -/
  later : s.write.state.terminal ≠ none → ∀ f, first = some f →
    (∀ op waker, step cfg s (.stream (.enqueue op waker)) .go = s.polled op.poll (.failed f)) ∧
      ∀ op w, step cfg s (.stream (.control op w)) .go = s.polled op (.failed f)

/-- The failures of a run agree: the write loop fails with the first failure or before it, the
terminal callback takes the first failure if there is one, and after it has taken a success
nothing fails. -/
structure FailsAlike (c : Config (Shared × Failures) Thread) (t : Thread) (_ : Choice) :
    Prop where
  /-- The write loop fails with the first failure, or before any. -/
  loop : ∀ e, t = .finish (.drain .writer (.error e)) ∨ (∃ w, t = .writer (.refuse w e)) →
    c.shared.2.first = none ∨ c.shared.2.first = some e
  /-- The terminal callback takes the first failure. -/
  callback : ∀ fallback, t = .terminal (.take fallback) → ∀ f, c.shared.2.first = some f →
    c.shared.1.context.pendingError.or fallback = some f
  /-- After a success nothing fails. -/
  late : c.shared.2.verdict = some (.ok ()) → c.shared.1.failure t = none

/-! ## What a step publishes -/

/-- What the terminal callback has taken, as it takes it further. -/
def Thread.verdict : Thread → Option (Result Unit)
  | .terminal (.ready r) | .terminal (.headers r) | .terminal (.setHeaders r)
  | .terminal (.trailers r) | .terminal (.setTrailers r) | .terminal (.watch r)
  | .terminal (.spawn r)
  | .finish (.drain .terminal r) | .finish (.wake .terminal r) | .finish (.notify .terminal r) =>
    some r
  | _ => none

/-- What a send task is about to send. -/
def Thread.sends : Thread → Option ReadEvent
  | .task (.send event) | .task (.sendLast event) => some event
  | _ => none

/-- What a callback has brought. -/
def Thread.brought : Thread → Option Callback
  | .callback (.entered c) => some c
  | .callback (.headers h) => some (.responseHeaders h)
  | .callback (.trailers l) => some (.responseTrailers l)
  | _ => none

/-- What `finish` is called with. -/
def Thread.finishes : Thread → Option (Finisher × Result Unit)
  | .finish (.drain who r) => some (who, r)
  | _ => none

/-- A terminal callback that has passed the swap of `done`. -/
def Thread.takes : Thread → Nat
  | .terminal (.take _) => 1
  | _ => 0

/-- Events that tell somebody of an error. -/
def Event.tells : Event → Option Error
  | .chunk (some (.error e)) | .answered _ (.error e) => some e
  | _ => none

/-- What a step publishes. -/
structure Publishes (s : Shared) (t : Thread) (s' : Shared) : Prop where
  /-- The outcome is published by the terminal callback. -/
  terminal : s'.context.terminal = s.context.terminal ∨
    ∃ r, t.verdict = some r ∧ s'.context.terminal = some r
  /-- The headers are published by their callback or by the terminal one. -/
  headers : s'.context.headers = s.context.headers ∨
    (∃ h, t.brought = some (.responseHeaders h) ∧ s'.context.headers = some (.ok h)) ∨
    ∃ r h, t.verdict = some r ∧ s'.context.headers = some (r.map fun _ => h)
  /-- So are the trailers. -/
  trailers : s'.context.trailers = s.context.trailers ∨
    (∃ l, t.brought = some (.responseTrailers l) ∧ s'.context.trailers = some (.ok l)) ∨
    ∃ r l, t.verdict = some r ∧ s'.context.trailers = some (r.map fun _ => l)
  /-- The write side is ended by whoever has a verdict for it. -/
  write : s'.write.state.terminal = s.write.state.terminal ∨
    ∃ who r, t.finishes = some (who, r) ∧ s'.write.state.terminal = some r
  /-- An error in the channel was sent. -/
  queue : ∀ e, .error e ∈ s'.channel.queue →
    .error e ∈ s.channel.queue ∨ t.sends = some (.error e)
  /-- What a caller is told was in the channel, or comes from the write side. -/
  trace : ∃ l, s'.trace = s.trace ++ l ∧ ∀ event ∈ l, ∀ e, event.tells = some e →
    .error e ∈ s.channel.queue ∨ (∃ who, t.finishes = some (who, .error e)) ∨
      ∃ w, t = .writer (.refuse w e)

/-- What the observers look at, beside the trace. -/
def Shared.published (s : Shared) : Option (Result Unit) × Option (Result Headers) ×
    Option (Result (List Header)) × Option (Result Unit) × List ReadEvent :=
  (s.context.terminal, s.context.headers, s.context.trailers, s.write.state.terminal,
    s.channel.queue)

/-- A step that adds to the trace and publishes nothing. -/
theorem Publishes.still {l : List Event} (h : s'.published = s.published)
    (htr : s'.trace = s.trace ++ l) (hl : (l.all fun e => e.tells.isNone) = true) :
    Publishes s t s' := by
  simp only [Shared.published, Prod.mk.injEq] at h
  obtain ⟨hterminal, hheaders, htrailers, hwrite, hqueue⟩ := h
  refine ⟨.inl hterminal, .inl hheaders, .inl htrailers, .inl hwrite, ?_, l, htr, ?_⟩
  · rw [hqueue]
    exact fun _ => .inl
  · intro event he e htells
    have hnone := List.all_eq_true.mp hl event he
    rw [htells] at hnone
    cases hnone

theorem Publishes.quiet (h : s'.published = s.published) (htr : s'.trace = s.trace) :
    Publishes s t s' :=
  .still h (htr.trans (List.append_nil _).symm) rfl

theorem wake_published : s.wake.published = s.published ∧ s.wake.trace = s.trace := by
  unfold Shared.wake
  split <;> exact ⟨rfl, rfl⟩

theorem releaseArc_published :
    s.releaseArc.published = s.published ∧ s.releaseArc.trace = s.trace := by
  unfold Shared.releaseArc
  split_ifs <;> exact ⟨rfl, rfl⟩

theorem nobody_told {p : Error → Prop} {l : List Event}
    (hl : (l.all fun e => e.tells.isNone) = true) :
    ∀ event ∈ l, ∀ e, event.tells = some e → p e := by
  intro event he e htells
  have hnone := List.all_eq_true.mp hl event he
  rw [htells] at hnone
  cases hnone

/-- Nothing is published but to those who read the channel. -/
theorem Publishes.channel {l : List Event} (hcontext : s'.context = s.context)
    (hwrite : s'.write = s.write)
    (hqueue : ∀ e, .error e ∈ s'.channel.queue →
      .error e ∈ s.channel.queue ∨ t.sends = some (.error e))
    (htr : s'.trace = s.trace ++ l)
    (hl : ∀ event ∈ l, ∀ e, event.tells = some e → .error e ∈ s.channel.queue) :
    Publishes s t s' := by
  refine ⟨.inl ?_, .inl ?_, .inl ?_, .inl ?_, hqueue, l, htr, ?_⟩
  · rw [hcontext]
  · rw [hcontext]
  · rw [hcontext]
  · rw [hwrite]
  · exact fun event he e htells => .inl (hl event he e htells)

theorem callbackStep_publishes {p : InCallback} (h : callbackStep cfg s p ch = some (s', ts)) :
    Publishes s (.callback p) s' := by
  revert h
  fun_cases callbackStep cfg s p ch <;> first | exact of_none | apply of_some
  case case6 headers =>
    exact ⟨.inl rfl, .inr (.inl ⟨headers, rfl, rfl⟩), .inl rfl, .inl rfl, fun _ => .inl, [],
      (List.append_nil _).symm, List.forall_mem_nil _⟩
  case case16 pointer _ _ =>
    refine ⟨.inl rfl, .inl rfl, .inl rfl, .inl remove_terminal, fun _ => .inl, _, rfl, ?_⟩
    intro event he e htells
    obtain ⟨waiter, -, rfl⟩ := List.mem_map.mp he
    cases htells
  case case17 pointer _ _ =>
    exact ⟨.inl rfl, .inl rfl, .inl rfl, .inl remove_terminal, fun _ => .inl, [],
      (List.append_nil _).symm, List.forall_mem_nil _⟩
  case case18 => exact .quiet wake_published.1 wake_published.2
  case case19 trailers =>
    exact ⟨.inl rfl, .inl rfl, .inr (.inl ⟨trailers, rfl, rfl⟩), .inl rfl, fun _ => .inl, [],
      (List.append_nil _).symm, List.forall_mem_nil _⟩
  all_goals exact .quiet rfl rfl

theorem terminalStep_publishes {p : Terminal} (h : terminalStep s p ch = some (s', ts)) :
    Publishes s (.terminal p) s' := by
  revert h
  fun_cases terminalStep s p ch <;> first | exact of_none | apply of_some
  case case2 => exact .still rfl rfl rfl
  case case8 result _ =>
    exact ⟨.inl rfl, .inr (.inr ⟨result, _, rfl, rfl⟩), .inl rfl, .inl rfl, fun _ => .inl, [],
      (List.append_nil _).symm, List.forall_mem_nil _⟩
  case case11 result =>
    exact ⟨.inl rfl, .inl rfl, .inr (.inr ⟨result, _, rfl, rfl⟩), .inl rfl, fun _ => .inl, [],
      (List.append_nil _).symm, List.forall_mem_nil _⟩
  case case12 result =>
    exact ⟨.inr ⟨result, rfl, rfl⟩, .inl rfl, .inl rfl, .inl rfl, fun _ => .inl, [],
      (List.append_nil _).symm, List.forall_mem_nil _⟩
  all_goals exact .quiet rfl rfl

theorem finishStep_publishes {p : Finish} (h : finishStep s p ch = some (s', ts)) :
    Publishes s (.finish p) s' := by
  revert h
  fun_cases finishStep s p ch <;> first | exact of_none | apply of_some
  case case1 who result _ _ =>
    refine ⟨.inl rfl, .inl rfl, .inl rfl, .inr ⟨who, result, rfl, rfl⟩, fun _ => .inl, _,
      List.append_assoc _ _ _, ?_⟩
    intro event he e htells
    rcases List.mem_append.mp he with he | he
    · obtain ⟨waiter, -, rfl⟩ := List.mem_map.mp he
      cases result with
      | ok => cases htells
      | error e' =>
        cases htells
        exact .inr (.inl ⟨who, rfl⟩)
    · obtain rfl := List.mem_singleton.mp he
      cases htells
  case case2 => exact .quiet wake_published.1 wake_published.2
  case case3 => exact .quiet rfl rfl

theorem taskStep_publishes {p : Task} (h : taskStep cfg s p ch = some (s', ts)) :
    Publishes s (.task p) s' := by
  have hsent : ∀ event e, ReadEvent.error e ∈ s.channel.queue ++ [event] →
      .error e ∈ s.channel.queue ∨ some event = some (.error e) := by
    intro event e hmem
    rcases List.mem_append.mp hmem with hmem | hmem
    · exact .inl hmem
    · exact .inr (congrArg some (List.mem_singleton.mp hmem).symm)
  revert h
  fun_cases taskStep cfg s p ch <;> first | exact of_none | apply of_some
  case case1 event _ _ | case4 event _ _ =>
    exact .channel rfl rfl (hsent event) (List.append_nil _).symm (List.forall_mem_nil _)
  case case10 => exact .quiet releaseArc_published.1 releaseArc_published.2
  all_goals first
    | exact .quiet rfl rfl
    | exact .still rfl rfl rfl

theorem writerStep_publishes {p : Writer} (h : writerStep s p ch = some (s', ts)) :
    Publishes s (.writer p) s' := by
  revert h
  fun_cases writerStep s p ch <;> first | exact of_none | apply of_some
  case case16 waiter e =>
    refine ⟨.inl rfl, .inl rfl, .inl rfl, .inl rfl, fun _ => .inl, _, rfl, ?_⟩
    intro event he e' htells
    obtain rfl := List.mem_singleton.mp he
    cases htells
    exact .inr (.inr ⟨waiter, rfl⟩)
  case case14 => exact .still rfl rfl rfl
  all_goals exact .quiet rfl rfl

theorem streamStep_publishes {p : Stream} (h : streamStep cfg s p ch = some (s', ts)) :
    Publishes s (.stream p) s' := by
  revert h
  fun_cases streamStep cfg s p ch <;> first | exact of_none | apply of_some
  case case9 bytes queue hqueue =>
    refine .channel rfl rfl (fun e he => .inl ?_) rfl (nobody_told rfl)
    rw [hqueue]
    exact List.mem_cons_of_mem _ he
  case case10 e queue hqueue =>
    refine .channel rfl rfl (fun e' he => .inl ?_) rfl ?_
    · rw [hqueue]
      exact List.mem_cons_of_mem _ he
    · intro event he e' htells
      obtain rfl := List.mem_singleton.mp he
      cases htells
      rw [hqueue]
      exact List.mem_cons_self
  case case11 queue hqueue =>
    refine .channel rfl rfl (fun e he => .inl ?_) rfl (nobody_told rfl)
    rw [hqueue]
    exact List.mem_cons_of_mem _ he
  case case33 =>
    refine .channel rfl rfl (fun e he => ?_) (List.append_nil _).symm (List.forall_mem_nil _)
    cases he
  all_goals first
    | exact .quiet rfl rfl
    | exact .still rfl rfl rfl

theorem step_publishes (h : step cfg s t ch = some (s', ts)) : Publishes s t s' := by
  revert h
  cases t <;> simp only [step]
  case callback p => exact callbackStep_publishes
  case terminal p => exact terminalStep_publishes
  case finish p => exact finishStep_publishes
  case task p => exact taskStep_publishes
  case writer p => exact writerStep_publishes
  case stream p => exact streamStep_publishes
  case outside who =>
    fun_cases outsideStep s who ch <;> intro h
    case case1 c _ =>
      obtain ⟨native, -, heq⟩ := Option.map_eq_some_iff.mp h
      cases heq
      exact .still rfl rfl rfl
    all_goals
      cases h
      try exact .quiet rfl rfl
  case openStream p =>
    fun_cases openStep cfg s p ch <;> first | exact of_none | apply of_some
    all_goals first
      | exact .quiet rfl rfl
      | exact .still rfl rfl rfl
      | exact .channel rfl rfl (fun _ he => absurd he List.not_mem_nil) (List.append_nil _).symm
          (List.forall_mem_nil _)
  case shutdown p =>
    fun_cases shutdownStep s p ch <;> first | exact of_none | (apply of_some; exact .quiet rfl rfl)
  case control p =>
    fun_cases controlStep s p ch <;> first | exact of_none | apply of_some
    all_goals first
      | exact .quiet rfl rfl
      | exact .still rfl rfl rfl
  case cleanup p =>
    fun_cases cleanupStep s p ch <;> first | exact of_none | apply of_some
    all_goals first
      | exact .quiet rfl rfl
      | exact .still rfl rfl rfl
      | exact .quiet releaseArc_published.1 releaseArc_published.2

/-! ## What a thread goes by -/

variable {g g' : Failures}

/-- What a thread carries agrees with what has been noted. -/
structure GoesBy (s : Shared) (g : Failures) (t : Thread) : Prop where
  /-- The verdict that it carries was noted. -/
  verdict : ∀ r, t.verdict = some r → g.verdict = some r
  /-- The write loop ends the write side with an error. -/
  fails : ∀ r, t.finishes = some (.writer, r) → ∃ e, r = .error e
  /-- The error that it sends is the first failure. -/
  sends : ∀ e, t.sends = some (.error e) → g.first = some e
  /-- The callback that it runs was begun. -/
  brought : ∀ c, t.brought = some c → .callbackBegun c ∈ s.trace

/-- The thread carries neither a verdict nor an error. -/
def Thread.mute (t : Thread) : Bool :=
  t.verdict.isNone && t.finishes.isNone && t.brought.isNone &&
    match t.sends with
    | some (.error _) => false
    | _ => true

theorem goesBy_of_mute (h : ts.all Thread.mute = true) : ∀ u ∈ ts, GoesBy s g u := by
  intro u hu
  have hmute := List.all_eq_true.mp h u hu
  simp only [Thread.mute, Bool.and_eq_true, Option.isNone_iff_eq_none] at hmute
  obtain ⟨⟨⟨hverdict, hfinishes⟩, hbrought⟩, hsends⟩ := hmute
  refine ⟨?_, ?_, ?_, ?_⟩
  · rw [hverdict]
    exact fun _ => nofun
  · rw [hfinishes]
    exact fun _ => nofun
  · intro e he
    rw [he] at hsends
    cases hsends
  · rw [hbrought]
    exact fun _ => nofun

theorem goesBy_one (h : GoesBy s g u) : ∀ v ∈ [u], GoesBy s g v := List.forall_mem_singleton.mpr h

/-- A thread that has nothing but what the terminal callback has taken. -/
theorem GoesBy.published {r : Result Unit} (hg : g.verdict = some r)
    (hverdict : ∀ r', u.verdict = some r' → r' = r)
    (hfinishes : ∀ r', u.finishes ≠ some (.writer, r'))
    (hsends : u.sends = none) (hbrought : u.brought = none) : GoesBy s g u := by
  refine ⟨?_, ?_, ?_, ?_⟩
  · intro r' hr'
    rw [hverdict r' hr']
    exact hg
  · exact fun r' hr' => absurd hr' (hfinishes r')
  · rw [hsends]
    exact fun _ => nofun
  · rw [hbrought]
    exact fun _ => nofun

theorem unfinished (h : u.finishes = none) (r : Result Unit) : u.finishes ≠ some (.writer, r) := by
  rw [h]
  exact (Option.some_ne_none _).symm

/-- The write loop ends the write side with an error. -/
theorem GoesBy.failing {e : Error} (hfinishes : u.finishes = some (.writer, .error e))
    (hverdict : u.verdict = none) (hsends : u.sends = none) (hbrought : u.brought = none) :
    GoesBy s g u := by
  refine ⟨?_, ?_, ?_, ?_⟩
  · rw [hverdict]
    exact fun _ => nofun
  · intro r hr
    rw [hfinishes] at hr
    cases hr
    exact ⟨e, rfl⟩
  · rw [hsends]
    exact fun _ => nofun
  · rw [hbrought]
    exact fun _ => nofun

/-- A thread that has nothing but an event for the read side. -/
theorem GoesBy.sending (hverdict : u.verdict = none) (hfinishes : u.finishes = none)
    (hbrought : u.brought = none) (hsends : ∀ e, u.sends = some (.error e) → g.first = some e) :
    GoesBy s g u := by
  refine ⟨?_, ?_, hsends, ?_⟩
  · rw [hverdict]
    exact fun _ => nofun
  · rw [hfinishes]
    exact fun _ => nofun
  · rw [hbrought]
    exact fun _ => nofun

/-- A thread that has nothing but the callback that it came with. -/
theorem GoesBy.bringing (hverdict : u.verdict = none) (hfinishes : u.finishes = none)
    (hsends : u.sends = none) (hbrought : ∀ c, u.brought = some c → .callbackBegun c ∈ s.trace) :
    GoesBy s g u := by
  refine ⟨?_, ?_, ?_, hbrought⟩
  · rw [hverdict]
    exact fun _ => nofun
  · rw [hfinishes]
    exact fun _ => nofun
  · rw [hsends]
    exact fun _ => nofun

theorem note_verdict {r : Result Unit} (h : g.verdict = some r) :
    (g.note s t).verdict = some r := by
  rw [Failures.note, h]
  rfl

theorem note_first {e : Error} (h : g.first = some e) : (g.note s t).first = some e := by
  rw [Failures.note, h]
  rfl

theorem after_goesBy (op : GatedOp) (e : Option Error) : ∀ u ∈ op.after e, GoesBy s g u := by
  fun_cases GatedOp.after op e
  case case14 e =>
    exact goesBy_one (.failing rfl rfl rfl rfl)
  all_goals exact goesBy_of_mute rfl

theorem taken_verdict {fallback : Option Error} (h : g.verdict = none) :
    (g.note s (.terminal (.take fallback))).verdict =
      some (Terminal.result (s.context.pendingError.or fallback)) := by
  rw [Failures.note, h]
  rfl

theorem terminalStep_goesBy {p : Terminal} (h : terminalStep s p ch = some (s', ts))
    (ht : GoesBy s g (.terminal p))
    (hnone : ∀ fallback, p = .take fallback → g.verdict = none)
    (htold : Says (g.note s (.terminal p)).first (g.note s (.terminal p)).verdict) :
    ∀ u ∈ ts, GoesBy s' (g.note s (.terminal p)) u := by
  have hverdict := ht.verdict
  revert h htold
  fun_cases terminalStep s p ch <;> first | exact of_none | (apply of_some; intro htold)
  case case1 | case2 => exact goesBy_of_mute rfl
  case case3 fallback =>
    refine goesBy_one (.published (taken_verdict (hnone fallback rfl)) ?_ (unfinished rfl) rfl rfl)
    exact fun r' hr' => (Option.some.inj hr').symm
  case case13 result =>
    -- the last event of the read side
    have hv : (g.note s (.terminal (.spawn result))).verdict = some result :=
      note_verdict (hverdict result rfl)
    refine List.forall_mem_cons.mpr ⟨.sending rfl rfl rfl fun e he => ?_, goesBy_of_mute rfl⟩
    rw [hv] at htold
    cases result with
    | ok => cases he
    | error e' =>
      cases he
      exact htold
  case case14 | case15 => exact goesBy_of_mute rfl
  all_goals
    refine goesBy_one (.published (note_verdict (hverdict _ rfl)) ?_ ?_ rfl rfl)
    · exact fun r' hr' => (Option.some.inj hr').symm
    · exact fun r hr => by cases hr

theorem finishStep_goesBy {p : Finish} (h : finishStep s p ch = some (s', ts))
    (ht : GoesBy s g (.finish p)) : ∀ u ∈ ts, GoesBy s' (g.note s (.finish p)) u := by
  have hverdict := ht.verdict
  revert h
  fun_cases finishStep s p ch <;> first | exact of_none | apply of_some
  case case1 who result _ _ | case2 who result | case3 who result =>
    cases who with
    | terminal =>
      refine goesBy_one (.published (note_verdict (hverdict _ rfl)) ?_ ?_ rfl rfl)
      · exact fun r' hr' => (Option.some.inj hr').symm
      · exact fun r hr => by cases hr
    | writer => exact goesBy_of_mute rfl

theorem step_goesBy (h : step cfg s t ch = some (s', ts)) (ht : GoesBy s g t)
    (hnone : ∀ fallback, t = .terminal (.take fallback) → g.verdict = none)
    (htold : Says (g.note s t).first (g.note s t).verdict) :
    ∀ u ∈ ts, GoesBy s' (g.note s t) u := by
  revert h
  cases t <;> simp only [step]
  case terminal p =>
    exact fun h => terminalStep_goesBy h ht (fun fallback hp => hnone fallback (hp ▸ rfl)) htold
  case finish p => exact fun h => finishStep_goesBy h ht
  case outside who =>
    fun_cases outsideStep s who ch <;> intro h
    case case1 c _ =>
      obtain ⟨native, -, heq⟩ := Option.map_eq_some_iff.mp h
      cases heq
      refine List.forall_mem_cons.mpr ⟨goesBy_of_mute rfl _ (List.mem_singleton_self _),
        goesBy_one ?_⟩
      refine .bringing rfl rfl rfl fun c' hc' => ?_
      cases hc'
      exact List.mem_append_right _ List.mem_cons_self
    all_goals
      cases h
      try exact goesBy_of_mute rfl
  case callback p =>
    have hbrought := ht.brought
    fun_cases callbackStep cfg s p ch <;> first | exact of_none | apply of_some
    case case1 c =>
      have hmem : .callbackBegun c ∈ s.trace := hbrought c rfl
      refine goesBy_one ?_
      cases c with
      | responseHeaders headers | responseTrailers trailers =>
        refine .bringing rfl rfl rfl fun c' hc' => ?_
        cases hc'
        exact hmem
      | _ => exact goesBy_of_mute rfl _ (List.mem_singleton_self _)
    all_goals exact goesBy_of_mute rfl
  case openStream p =>
    fun_cases openStep cfg s p ch <;> first | exact of_none | apply of_some
    all_goals exact goesBy_of_mute rfl
  case shutdown p =>
    fun_cases shutdownStep s p ch <;> first | exact of_none | apply of_some
    all_goals exact goesBy_of_mute rfl
  case control p =>
    fun_cases controlStep s p ch <;> first | exact of_none | apply of_some
    case case26 op e => exact after_goesBy op e
    all_goals exact goesBy_of_mute rfl
  case task p =>
    fun_cases taskStep cfg s p ch <;> first | exact of_none | apply of_some
    all_goals exact goesBy_of_mute rfl
  case writer p =>
    fun_cases writerStep s p ch <;> first | exact of_none | apply of_some
    case case16 waiter e =>
      exact goesBy_one (.failing rfl rfl rfl rfl)
    all_goals exact goesBy_of_mute rfl
  case stream p =>
    fun_cases streamStep cfg s p ch <;> first | exact of_none | apply of_some
    all_goals exact goesBy_of_mute rfl
  case cleanup p =>
    fun_cases cleanupStep s p ch <;> first | exact of_none | apply of_some
    all_goals exact goesBy_of_mute rfl

/-- **What a thread goes by survives the steps of the others.** -/
theorem GoesBy.other (h : GoesBy s g u) (hp : Publishes s t s') : GoesBy s' (g.note s t) u := by
  obtain ⟨l, htrace, -⟩ := hp.trace
  refine ⟨?_, h.fails, ?_, ?_⟩
  · exact fun r hr => note_verdict (h.verdict r hr)
  · exact fun e he => note_first (h.sends e he)
  · intro c hc
    rw [htrace]
    exact List.mem_append_left l (h.brought c hc)

/-! ## One terminal callback takes the error -/

theorem takes_still (hdone : s'.control.done = s.control.done)
    (hts : (ts.map Thread.takes).sum = 0) :
    s'.control.done.toNat = s.control.done.toNat + (ts.map Thread.takes).sum := by
  rw [hdone, hts]
  rfl

theorem step_takes (h : step cfg s t ch = some (s', ts)) :
    s'.control.done.toNat = s.control.done.toNat + (ts.map Thread.takes).sum := by
  revert h
  cases t <;> simp only [step]
  case outside who =>
    fun_cases outsideStep s who ch <;> intro h
    case case1 c _ =>
      obtain ⟨native, -, heq⟩ := Option.map_eq_some_iff.mp h
      cases heq
      exact takes_still rfl rfl
    all_goals
      cases h
      try exact takes_still rfl rfl
  case openStream p =>
    fun_cases openStep cfg s p ch <;> first | exact of_none | apply of_some
    all_goals exact takes_still rfl rfl
  case shutdown p =>
    fun_cases shutdownStep s p ch <;> first | exact of_none | apply of_some
    all_goals exact takes_still rfl rfl
  case control p =>
    fun_cases controlStep s p ch <;> first | exact of_none | apply of_some
    case case26 op e => fun_cases GatedOp.after op e <;> exact takes_still rfl rfl
    all_goals exact takes_still rfl rfl
  case callback p =>
    fun_cases callbackStep cfg s p ch <;> first | exact of_none | apply of_some
    case case1 c => cases c <;> exact takes_still rfl rfl
    case case18 => exact takes_still (congrArg (·.done) (wake_kept s).1) rfl
    all_goals exact takes_still rfl rfl
  case terminal p =>
    fun_cases terminalStep s p ch <;> first | exact of_none | apply of_some
    case case2 hdone =>
      rw [Bool.eq_false_iff.mpr hdone]
      rfl
    all_goals exact takes_still rfl rfl
  case finish p =>
    fun_cases finishStep s p ch <;> first | exact of_none | apply of_some
    case case1 => exact takes_still rfl rfl
    case case2 => exact takes_still (congrArg (·.done) (wake_kept s).1) rfl
    case case3 who _ => cases who <;> exact takes_still rfl rfl
  case task p =>
    fun_cases taskStep cfg s p ch <;> first | exact of_none | apply of_some
    case case10 => exact takes_still (congrArg (·.done) (releaseArc_kept s).1) rfl
    all_goals exact takes_still rfl rfl
  case writer p =>
    fun_cases writerStep s p ch <;> first | exact of_none | apply of_some
    all_goals exact takes_still rfl rfl
  case stream p =>
    fun_cases streamStep cfg s p ch <;> first | exact of_none | apply of_some
    all_goals exact takes_still rfl rfl
  case cleanup p =>
    fun_cases cleanupStep s p ch <;> first | exact of_none | apply of_some
    all_goals first
      | exact takes_still rfl rfl
      | exact takes_still (congrArg (·.done) (releaseArc_kept s).1) rfl

theorem taken_none (h : t.takes ≠ 1) : s.taken t = none := by
  fun_cases Shared.taken s t
  case case1 => exact absurd rfl h
  case case2 => rfl

theorem note_takes (h : t.takes = 1 → g.verdict = none) :
    (g.note s t).verdict.isSome.toNat = g.verdict.isSome.toNat + t.takes := by
  by_cases ht : t.takes = 1
  · rw [ht, h ht]
    unfold Thread.takes at ht
    split at ht
    · rw [taken_verdict (h rfl)]
      rfl
    · cases ht
  · have hzero : t.takes = 0 := by
      unfold Thread.takes at ht ⊢
      split at ht
      · exact absurd rfl ht
      · rfl
    rw [Failures.note, taken_none ht, Option.or_none, hzero]
    rfl

/-! ## The invariant -/

variable {rest : Multiset Thread} {c c' : Config (Shared × Failures) Thread}

/-- The stream tells everybody of the first failure. -/
structure FailInv (s : Shared) (g : Failures) (threads : Multiset Thread) : Prop where
  /-- The verdict is taken once. -/
  once : g.verdict.isSome.toNat + total Thread.takes threads = s.control.done.toNat
  /-- The verdict is the first failure, if there is one. -/
  agrees : Says g.first g.verdict
  /-- The threads carry what was noted. -/
  goes : ∀ t ∈ threads, GoesBy s g t
  /-- The outcome is the verdict. -/
  finished : ∀ r, s.context.terminal = some r → g.verdict = some r
  /-- The headers say the verdict, or come from their callback. -/
  headers : ∀ r, s.context.headers = some r →
    (∃ v h, g.verdict = some v ∧ r = v.map fun _ => h) ∨
      ∃ h, r = .ok h ∧ .callbackBegun (.responseHeaders h) ∈ s.trace
  /-- So do the trailers. -/
  trailers : ∀ r, s.context.trailers = some r →
    (∃ v l, g.verdict = some v ∧ r = v.map fun _ => l) ∨
      ∃ l, r = .ok l ∧ .callbackBegun (.responseTrailers l) ∈ s.trace
  /-- The write side has ended with the verdict or the first failure. -/
  write : ∀ r, s.write.state.terminal = some r →
    g.verdict = some r ∨ ∃ e, r = .error e ∧ g.first = some e
  /-- An error in the channel is the first failure. -/
  reads : ∀ e, .error e ∈ s.channel.queue → g.first = some e
  /-- What a caller was told is the first failure. -/
  told : ∀ event ∈ s.trace, ∀ e, event.tells = some e → g.first = some e

/-- Only one callback takes the error. -/
theorem FailInv.untaken (hi : FailInv s g (t ::ₘ rest)) (ht : t.takes = 1) : g.verdict = none := by
  have honce := hi.once
  rw [total_cons, ht] at honce
  have hle : s.control.done.toNat ≤ 1 := Bool.toNat_le _
  cases hv : g.verdict with
  | none => rfl
  | some r =>
    rw [hv] at honce
    change 1 + _ = _ at honce
    omega

/-- The failures that agree are one. -/
theorem FailInv.agreed (hi : FailInv s g (t ::ₘ rest))
    (ha : FailsAlike ⟨(s, g), t ::ₘ rest⟩ t ch) :
    Says (g.note s t).first (g.note s t).verdict := by
  have hagrees := hi.agrees
  by_cases ht : t.takes = 1
  · have hnone := hi.untaken ht
    unfold Thread.takes at ht
    split at ht
    · rename_i fallback
      rw [taken_verdict hnone]
      have hcallback := ha.callback fallback rfl
      show Says (g.first.or (s.context.pendingError.or fallback)) _
      cases hf : g.first with
      | none =>
        cases hp : s.context.pendingError.or fallback with
        | none => rfl
        | some e => rfl
      | some f =>
        rw [hcallback f hf]
        rfl
    · cases ht
  · have hsame : (g.note s t).verdict = g.verdict := by
      rw [Failures.note, taken_none ht, Option.or_none]
    rw [hsame]
    cases hv : g.verdict with
    | none => trivial
    | some r =>
      rw [hv] at hagrees
      cases r with
      | ok =>
        have hlate := ha.late hv
        show g.first.or (s.failure t) = none
        rw [show g.first = none from hagrees]
        exact hlate
      | error e => exact note_first hagrees

/-- A failure of the write loop is the first, or the same as the first. -/
theorem FailsAlike.noted {e : Error} (ha : FailsAlike ⟨(s, g), t ::ₘ rest⟩ t ch)
    (ht : t = .finish (.drain .writer (.error e)) ∨ ∃ w, t = .writer (.refuse w e)) :
    (g.note s t).first = some e := by
  have hfailure : s.failure t = some e := by
    rcases ht with rfl | ⟨w, rfl⟩ <;> rfl
  show g.first.or (s.failure t) = some e
  rcases ha.loop e ht with hnone | hsome
  · rw [show g.first = none from hnone]
    exact hfailure
  · rw [show g.first = some e from hsome]
    rfl

theorem finishes_thread {who : Finisher} {r : Result Unit} (h : t.finishes = some (who, r)) :
    t = .finish (.drain who r) := by
  unfold Thread.finishes at h
  split at h
  · cases h
    rfl
  · cases h

/-- What ends the write side is what failed first. -/
theorem FailInv.ends {who : Finisher} {r : Result Unit} (hi : FailInv s g (t ::ₘ rest))
    (ha : FailsAlike ⟨(s, g), t ::ₘ rest⟩ t ch) (ht : t.finishes = some (who, r)) :
    (g.note s t).verdict = some r ∨ ∃ e, r = .error e ∧ (g.note s t).first = some e := by
  have hgoes := hi.goes t (Multiset.mem_cons_self t rest)
  obtain rfl := finishes_thread ht
  cases who with
  | terminal => exact .inl (note_verdict (hgoes.verdict r rfl))
  | writer =>
    obtain ⟨e, rfl⟩ := hgoes.fails r rfl
    exact .inr ⟨e, rfl, ha.noted (.inl rfl)⟩

theorem failInv_step (hi : FailInv s g (t ::ₘ rest))
    (ha : FailsAlike ⟨(s, g), t ::ₘ rest⟩ t ch) (hn : step cfg s t ch = some (s', ts)) :
    FailInv s' (g.note s t) (ts + rest) := by
  have hgoes := hi.goes t (Multiset.mem_cons_self t rest)
  have hp := step_publishes hn
  have htold := hi.agreed ha
  obtain ⟨l, htrace, hl⟩ := hp.trace
  have hbegun : ∀ c, .callbackBegun c ∈ s.trace → .callbackBegun c ∈ s'.trace := by
    intro c hc
    rw [htrace]
    exact List.mem_append_left l hc
  refine ⟨?_, htold, ?_, ?_, ?_, ?_, ?_, ?_, ?_⟩
  · have honce := hi.once
    have hv := note_takes (s := s) hi.untaken
    have hdone := step_takes hn
    rw [total_cons] at honce
    rw [total_add, total_coe]
    omega
  · refine forall_step hi.goes (fun _ => step_goesBy hn hgoes ?_ htold) (fun u _ hu => hu.other hp)
    rintro fallback rfl
    exact hi.untaken rfl
  · intro r hr
    rcases hp.terminal with hsame | ⟨r', hv, hset⟩
    · exact note_verdict (hi.finished r (hsame ▸ hr))
    · obtain rfl := Option.some.inj (hset.symm.trans hr)
      exact note_verdict (hgoes.verdict _ hv)
  · intro r hr
    rcases hp.headers with hsame | ⟨h, hb, hset⟩ | ⟨v, h, hv, hset⟩
    · rcases hi.headers r (hsame ▸ hr) with ⟨v, h, hv, rfl⟩ | ⟨h, rfl, hb⟩
      · exact .inl ⟨v, h, note_verdict hv, rfl⟩
      · exact .inr ⟨h, rfl, hbegun _ hb⟩
    · obtain rfl := Option.some.inj (hset.symm.trans hr)
      exact .inr ⟨h, rfl, hbegun _ (hgoes.brought _ hb)⟩
    · obtain rfl := Option.some.inj (hset.symm.trans hr)
      exact .inl ⟨v, h, note_verdict (hgoes.verdict v hv), rfl⟩
  · intro r hr
    rcases hp.trailers with hsame | ⟨l, hb, hset⟩ | ⟨v, l, hv, hset⟩
    · rcases hi.trailers r (hsame ▸ hr) with ⟨v, l, hv, rfl⟩ | ⟨l, rfl, hb⟩
      · exact .inl ⟨v, l, note_verdict hv, rfl⟩
      · exact .inr ⟨l, rfl, hbegun _ hb⟩
    · obtain rfl := Option.some.inj (hset.symm.trans hr)
      exact .inr ⟨l, rfl, hbegun _ (hgoes.brought _ hb)⟩
    · obtain rfl := Option.some.inj (hset.symm.trans hr)
      exact .inl ⟨v, l, note_verdict (hgoes.verdict v hv), rfl⟩
  · intro r hr
    rcases hp.write with hsame | ⟨who, r', hf, hset⟩
    · rcases hi.write r (hsame ▸ hr) with hv | ⟨e, rfl, hfirst⟩
      · exact .inl (note_verdict hv)
      · exact .inr ⟨e, rfl, note_first hfirst⟩
    · obtain rfl := Option.some.inj (hset.symm.trans hr)
      exact hi.ends ha hf
  · intro e he
    rcases hp.queue e he with hold | hsends
    · exact note_first (hi.reads e hold)
    · exact note_first (hgoes.sends e hsends)
  · intro event hevent e htells
    rw [htrace] at hevent
    rcases List.mem_append.mp hevent with hold | hnew
    · exact note_first (hi.told event hold e htells)
    · rcases hl event hnew e htells with hqueue | ⟨who, hf⟩ | ⟨w, rfl⟩
      · exact note_first (hi.reads e hqueue)
      · rcases hi.ends ha hf with hv | ⟨e', heq, hfirst⟩
        · rw [hv] at htold
          exact htold
        · cases heq
          exact hfirst
      · exact ha.noted (.inr ⟨w, rfl⟩)

theorem failInv_init : FailInv start.shared {} start.config.threads where
  once := rfl
  agrees := trivial
  goes := by
    intro t ht
    have hall : ∀ u ∈ start.threads, GoesBy start.shared {} u := goesBy_of_mute rfl
    exact hall t (Multiset.mem_coe.mp ht)
  finished := fun _ => nofun
  headers := fun _ => nofun
  trailers := fun _ => nofun
  write := fun _ => nofun
  reads := fun _ => nofun
  told := fun _ => nofun

theorem failInv_reachable (h : Reachable (noted cfg) FailsAlike startNoted.config c) :
    FailInv c.shared.1 c.shared.2 c.threads := by
  refine h.invariant (P := fun c => FailInv c.shared.1 c.shared.2 c.threads) failInv_init ?_
  rintro _ _ - hi ⟨ha, hn⟩
  obtain ⟨hstep, hnote⟩ := ghost_step hn
  rw [hnote]
  exact failInv_step hi ha hstep

/-- Every run of the program has recorded something. -/
theorem noted_reachable {allowed : Policy Shared Thread Choice} {c : Config Shared Thread}
    (h : Reachable (step cfg) allowed start.config c) :
    ∃ g, Reachable (noted cfg) (fun c => allowed c.forget) startNoted.config (c.haunted g) :=
  h.haunted ({} : Failures)

/-! ## What is reported agrees -/

theorem Says.map {α : Type} {first : Option Error} {r : Result Unit} {x : α}
    (h : Says first (some r)) : Says first (some (r.map fun _ => x)) := by
  cases r with
  | ok => exact h
  | error e => exact h

theorem Says.eq_error {α : Type} {f : Error} {r : Result α} (h : Says (some f) (some r)) :
    r = .error f := by
  cases r with
  | ok => cases h
  | error e =>
    cases h
    rfl

theorem FailInv.verdict_agrees {threads : Multiset Thread} {r : Result Unit}
    (hi : FailInv s g threads) (h : g.verdict = some r) : Says g.first (some r) :=
  h ▸ hi.agrees

theorem FailInv.write_agrees {threads : Multiset Thread} (hi : FailInv s g threads) :
    Says g.first s.write.state.terminal := by
  cases hw : s.write.state.terminal with
  | none => trivial
  | some r =>
    rcases hi.write r hw with hv | ⟨e, rfl, hfirst⟩
    · exact hi.verdict_agrees hv
    · exact hfirst

/-- Once something has failed, the write side ends with it. -/
theorem FailInv.write_ended {threads : Multiset Thread} {f : Error} (hi : FailInv s g threads)
    (h : s.write.state.terminal ≠ none) (hf : g.first = some f) :
    s.write.state.terminal = some (.error f) := by
  obtain ⟨r, hr⟩ := Option.ne_none_iff_exists'.mp h
  have htold := hi.write_agrees
  rw [hr, hf] at htold
  rw [hr, htold.eq_error]

theorem answerTo_answered {w : Waiter} {r : Result Unit} (h : s.answerTo w = some r) :
    .answered w r ∈ s.trace := by
  obtain ⟨event, hevent, heq⟩ := List.exists_of_findSome?_eq_some h
  split at heq
  · split_ifs at heq with hw
    subst hw
    cases heq
    exact hevent
  · cases heq

/-- A poll of the write half fails with what the write side has ended with, or with what its
flush was answered. -/
theorem polled_failed {p : Stream} {op : PollOp} {e : Error}
    (h : step cfg s (.stream p) ch = some (s', ts))
    (htrace : s'.trace = s.trace ++ [.polled op (.failed e)]) :
    s.write.state.terminal = some (.error e) ∨ (∃ w, .answered w (.error e) ∈ s.trace) ∨
      s.write.state.localClosed = true ∧ e = .canceled := by
  revert h htrace
  rw [step]
  fun_cases streamStep cfg s p ch <;> first | exact of_none | (apply of_some; intro htrace)
  case case15 hterm =>
    cases List.append_cancel_left htrace
    exact .inl hterm
  case case16 hclosed _ =>
    cases List.append_cancel_left htrace
    exact .inr (.inr ⟨hclosed, rfl⟩)
  case case24 hterm =>
    cases List.append_cancel_left htrace
    exact .inl hterm
  case case29 hanswer =>
    cases List.append_cancel_left htrace
    exact .inr (.inl ⟨_, answerTo_answered hanswer⟩)
  all_goals simp at htrace

/-- **The first failure is the one that everybody is told**, in every run in which the failures
agree, and the write side keeps it. -/
theorem first_failure_reported (h : Reachable (noted cfg) FailsAlike startNoted.config c) :
    FirstReported cfg c.shared.1 c.shared.2.first ∧
      ∀ e, c.shared.1.write.state.terminal = some (.error e) →
        ∀ c', Step (noted cfg) FailsAlike c c' →
          c'.shared.1.write.state.terminal = some (.error e) := by
  have hi := failInv_reachable h
  refine ⟨⟨?_, ?_, ?_, ?_, hi.write_agrees, ?_, ?_⟩, ?_⟩
  · cases ht : c.shared.1.context.terminal with
    | none => trivial
    | some r => exact hi.verdict_agrees (hi.finished r ht)
  · intro r hr
    rcases hi.headers r hr with ⟨v, h, hv, rfl⟩ | hbegun
    · exact .inl (hi.verdict_agrees hv).map
    · exact .inr hbegun
  · intro r hr
    rcases hi.trailers r hr with ⟨v, l, hv, rfl⟩ | hbegun
    · exact .inl (hi.verdict_agrees hv).map
    · exact .inr hbegun
  · intro e he
    rcases he with he | he
    · exact hi.reads e he
    · exact hi.told _ he e rfl
  · intro p ch s' ts op e hn htrace
    rcases polled_failed hn htrace with hterm | ⟨w, hanswered⟩ | hclosed
    · have htold := hi.write_agrees
      rw [hterm] at htold
      exact .inl htold
    · exact .inl (hi.told _ hanswered e rfl)
    · exact .inr hclosed
  · intro hended f hf
    have hterm : c.shared.1.write.state.terminal = some (.error f) :=
      hi.write_ended hended hf
    constructor
    · intro op waker
      rw [step, streamStep, hterm]
    · intro op w
      rw [step, streamStep, hterm]
  · intro e he c' hs
    have hi' := failInv_reachable (h.tail hs)
    have hfirst : c.shared.2.first = some e := by
      have htold := hi.write_agrees
      rw [he] at htold
      exact htold
    obtain ⟨-, hn⟩ := hs
    obtain ⟨hstep, hnote⟩ := ghost_step hn
    refine hi'.write_ended ?_ (hnote ▸ note_first hfirst)
    rcases (step_publishes hstep).write with hsame | ⟨who, r, -, hset⟩
    · rw [hsame, he]
      exact Option.some_ne_none _
    · rw [hset]
      exact Option.some_ne_none _

/-! ## Runs -/

/-- `FailsAlike` as a test. -/
def failsAlike (c : Listed (Shared × Failures) Thread) (t : Thread) (_ : Choice) : Bool :=
  (match t with
    | .finish (.drain .writer (.error e)) | .writer (.refuse _ e) =>
      decide (c.shared.2.first = none ∨ c.shared.2.first = some e)
    | .terminal (.take fallback) =>
      c.shared.2.first.isNone ||
        decide (c.shared.1.context.pendingError.or fallback = c.shared.2.first)
    | _ => true) &&
  (!decide (c.shared.2.verdict = some (.ok ())) || (c.shared.1.failure t).isNone)

theorem failsAlike_sound (c : Listed (Shared × Failures) Thread) (t : Thread) (ch : Choice)
    (h : failsAlike c t ch = true) : FailsAlike c.config t ch := by
  obtain ⟨hagrees, hlate⟩ := Bool.and_eq_true_iff.mp h
  refine ⟨?_, ?_, ?_⟩
  · rintro e (rfl | ⟨w, rfl⟩) <;> exact of_decide_eq_true hagrees
  · rintro fallback rfl f hf
    have hf' : c.shared.2.first = some f := hf
    rcases Bool.or_eq_true_iff.mp hagrees with hnone | hsame
    · rw [hf'] at hnone
      cases hnone
    · exact (of_decide_eq_true hsame).trans hf'
  · intro hv
    rcases Bool.or_eq_true_iff.mp hlate with hnot | hnone
    · rw [show c.shared.2.verdict = some (.ok ()) from hv] at hnot
      cases hnot
    · exact Option.isNone_iff_eq_none.mp hnone

/-- A read fails, and the stream is cancelled for it. -/
def readFails : Schedule :=
  opens ++
  [(.outside .cronet, [.callback (.readCompleted (-5) none)]),
   (.callback (.entered (.readCompleted (-5) none)), go 9)] ++
  cancels

theorem first_failure_reported_read :
    let c := (Pool.play (noted {}) failsAlike startNoted readFails).config
    c.shared.2.first = some (.bidirectionalApi "read callback" (-5)) ∧
      c.shared.1.context.terminal = some (.error (.bidirectionalApi "read callback" (-5))) ∧
      FirstReported {} c.shared.1 c.shared.2.first := by
  refine ⟨by decide +kernel, by decide +kernel, ?_⟩
  exact (first_failure_reported
    (play_reachable failsAlike_sound readFails Reachable.start)).1

/-- The native write fails, and the write loop cancels. -/
def writeFails : Schedule :=
  opens ++
  [(.stream .idle, .pollWrite [1] 0 3 :: go 2),
   (.writer .top, go 7 ++ [.result (some (-1))] ++ go 11)]

/-- Nothing is asked of a run. -/
def anyNoted : Listed (Shared × Failures) Thread → Thread → Choice → Bool := fun _ _ _ => true

/-- `finished()` reports something else. -/
theorem lost_of_terminal {first : Option Error} {e f : Error}
    (ht : s.context.terminal = some (.error e)) (hf : first = some f) (hne : e ≠ f) :
    ¬ FirstReported cfg s first := by
  intro hreported
  have htold := hreported.finished
  rw [ht, hf] at htold
  cases htold
  exact hne rfl

theorem first_failure_lost : ∃ b c,
    Reachable (noted {}) (fun _ _ _ => True) startNoted.config b ∧
      Reachable (noted {}) (fun _ _ _ => True) b c ∧
      b.shared.2.first = some (.bidirectionalApi "write" (-1)) ∧
      b.shared.1.write.state.terminal = some (.error (.bidirectionalApi "write" (-1))) ∧
      c.shared.1.context.terminal = some (.error .canceled) ∧
      c.shared.1.write.state.terminal = some (.error .canceled) ∧
      ¬ FirstReported {} c.shared.1 c.shared.2.first := by
  let b := Pool.play (noted {}) anyNoted startNoted writeFails
  let c := Pool.play (noted {}) anyNoted b cancels
  have hb : Reachable (noted {}) (fun _ _ _ => True) startNoted.config b.config :=
    play_reachable (fun _ _ _ _ => trivial) writeFails Reachable.start
  have hc : Reachable (noted {}) (fun _ _ _ => True) b.config c.config :=
    play_reachable (fun _ _ _ _ => trivial) cancels Reachable.start
  have hfirst : c.config.shared.2.first = some (.bidirectionalApi "write" (-1)) := by
    decide +kernel
  have hterminal : c.config.shared.1.context.terminal = some (.error .canceled) := by
    decide +kernel
  refine ⟨b.config, c.config, hb, hc, by decide +kernel, by decide +kernel, hterminal,
    by decide +kernel, ?_⟩
  exact lost_of_terminal hterminal hfirst nofun

end TokioCronet.Bidirectional
