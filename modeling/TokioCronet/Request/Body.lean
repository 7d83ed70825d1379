import TokioCronet.Reading.Items
import TokioCronet.Request.Buffers
import TokioCronet.Request.Report

/-!
# The order of the body

Every chunk is sent by a task that its read callback spawns, and the error that ended the
request by a task of its own. A chunk keeps its place because the right to read goes with
it: the next `Read` comes after the chunk is in the channel. Nothing of that kind orders the
error behind the last chunk.
-/

namespace TokioCronet.Request

open Pool

variable {cfg : Settings} {s s' : Shared} {t u : Thread} {ch : Choice} {ts : List Thread}
  {rest : Multiset Thread} {c c' : Config Shared Thread}

/-! ## What is seen of the body -/

/-- The chunk that a completion brings. -/
def chunkOf (n : Nat) (content : Option Bytes) : Option Bytes :=
  if n = 0 then none else content.map (·.take n)

/-- What is put into the channel. -/
def Event.item : Event → Option (Result Bytes)
  | .pushed chunk => some (.ok chunk)
  | .bodyError e => some (.error e)
  | _ => none

/-- The chunk that an event puts into the channel. -/
def Event.chunk : Event → Option Bytes
  | .pushed chunk => some chunk
  | _ => none

/-- The chunk of a completion that begins. -/
def Event.brings : Event → Option Bytes
  | .callbackBegun (.readCompleted _ n content) => chunkOf n content
  | _ => none

/-- What was put into the channel, in order. -/
def items (tr : List Event) : List (Result Bytes) := tr.filterMap Event.item

/-- The chunks among it. -/
def chunks (tr : List Event) : List Bytes := tr.filterMap Event.chunk

/-- The chunks in read order. -/
def reads (tr : List Event) : List Bytes := tr.filterMap Event.brings

/-- Some of the chunks in their order, and behind them one error at most. -/
def WellEnded (order : List Bytes) (l : List (Result Bytes)) : Prop :=
  ∃ (before : List Bytes) (errors : List Error),
    l = before.map .ok ++ errors.map .error ∧ before <+: order ∧ errors.length ≤ 1

/-- The chunk that a thread carries. -/
def Thread.chunk : Thread → Option Bytes
  | .runnable .entered (.readCompleted _ n content)
  | .callback (.own _ n content) | .callback (.account _ n content)
  | .callback (.copy _ n content) => chunkOf n content
  | .task (.send _ chunk) => some chunk
  | _ => none

/-- A completion that has not come as far as the channel. -/
def Thread.bears : Thread → Bool
  | .runnable _ (.readCompleted _ _ _) | .callback (.own _ _ _) | .callback (.account _ _ _)
  | .callback (.copy _ _ _) | .task (.send _ _) => true
  | _ => false

theorem bears_token (h : u.bears = true) : u.token = 1 := by
  cases u with
  | runnable stage r => cases r <;> first | rfl | cases h
  | callback p => cases p <;> first | rfl | cases h
  | task p => cases p <;> first | rfl | cases h
  | _ => cases h

theorem token_le (t : Thread) : t.token ≤ 1 := by
  cases t with
  | runnable stage r => cases r <;> first | exact Nat.zero_le 1 | exact Nat.le_refl 1
  | control p =>
    cases p with
    | lock op | raw op | done op | call op =>
      cases op <;> first | exact Nat.zero_le 1 | exact Nat.le_refl 1
    | _ => exact Nat.zero_le 1
  | callback p => cases p <;> first | exact Nat.zero_le 1 | exact Nat.le_refl 1
  | read p => cases p <;> first | exact Nat.zero_le 1 | exact Nat.le_refl 1
  | task p => cases p <;> first | exact Nat.zero_le 1 | exact Nat.le_refl 1
  | _ => exact Nat.zero_le 1

/-- The native side has the right to read, or has still to get it. -/
def Native.Owing (n : Native) : Prop := n.responded = false ∨ n.reading.isSome = true

/-! ## One step -/

/-- How the right to read comes to `u`. -/
inductive Passes (s : Shared) (t : Thread) (u : Thread) : Prop where
  | along : t.token = 1 → u.chunk = t.chunk → (u.bears = true → t.bears = true) → Passes s t u
  | submits : s.native.Owing → u.chunk = none → t.token = 0 → Passes s t u
  | begins {b : BufferId} {n : Nat} {content : Option Bytes} :
      t = .runnable .running (.readCompleted b n content) →
      u = .runnable .entered (.readCompleted b n content) → Passes s t u
  | resumes {b : BufferId} {chunk : Bytes} : t = .task (.send b chunk) →
      u = .control (.lock (.resumeRead b)) → Passes s t u

/-- What a step does with the right to read and the chunk that goes with it. -/
structure Carries (s : Shared) (t : Thread) (ch : Choice) (s' : Shared) (ts : List Thread) :
    Prop where
  /-- Who gets the right gets it from the thread, with its chunk. -/
  passes : ∀ u ∈ ts, u.token = 1 → Passes s t u
  /-- Cronet comes to owe a completion only from who has the right and no chunk. -/
  owing : s'.native.Owing → s.native.Owing ∨ t.token = 1 ∧ t.chunk = none
  /-- A chunk comes from the thread, or from a completion. -/
  bears : ∀ u ∈ ts, u.bears = true →
    t.bears = true ∨ ∃ b n content, ch = .submit (.readCompleted b n content)
  /-- Only the first terminal callback sets `terminal`. -/
  terminal : s'.context.state.terminal = true →
    s.context.state.terminal = true ∨ ∃ fallback, t = .terminal (.first fallback)

theorem token_none (h : (ts.map Thread.token).sum = 0) : ∀ u ∈ ts, u.token = 0 := by
  intro u hu
  rw [← total_coe] at h
  exact total_eq_zero.mp h u (Multiset.mem_coe.mpr hu)

/-- Nobody gets the right to read. -/
theorem Carries.still (hn : s'.native.responded = s.native.responded)
    (hr : s'.native.reading = s.native.reading)
    (hterminal : s'.context.state.terminal = true → s.context.state.terminal = true ∨
      ∃ fallback, t = .terminal (.first fallback))
    (hts : (ts.map Thread.token).sum = 0) : Carries s t ch s' ts where
  passes := by
    intro u hu hone
    rw [token_none hts u hu] at hone
    cases hone
  owing := by
    rw [Native.Owing, hn, hr]
    exact .inl
  bears := by
    intro u hu hbears
    have hzero := token_none hts u hu
    rw [bears_token hbears] at hzero
    cases hzero
  terminal := hterminal

/-- One thread hands the right on to another. -/
theorem Carries.along (hn : s'.native.responded = s.native.responded)
    (hr : s'.native.reading = s.native.reading)
    (hterminal : s'.context.state.terminal = s.context.state.terminal)
    (htoken : u.token ≤ t.token)
    (hchunk : u.chunk = t.chunk) (hbears : u.bears = true → t.bears = true)
    (hts : ∀ v ∈ ts, v = u ∨ v.token = 0) : Carries s t ch s' ts where
  passes := by
    intro v hv hone
    rcases hts v hv with rfl | hzero
    · have hle := token_le t
      exact .along (by omega) hchunk hbears
    · rw [hzero] at hone
      cases hone
  owing := by
    rw [Native.Owing, hn, hr]
    exact .inl
  bears := by
    intro v hv hb
    rcases hts v hv with rfl | hzero
    · exact .inl (hbears hb)
    · rw [bears_token hb] at hzero
      cases hzero
  terminal := by
    rw [hterminal]
    exact .inl

theorem Carries.one (hn : s'.native.responded = s.native.responded)
    (hr : s'.native.reading = s.native.reading)
    (hterminal : s'.context.state.terminal = s.context.state.terminal)
    (htoken : u.token ≤ t.token) (hchunk : u.chunk = t.chunk)
    (hbears : u.bears = true → t.bears = true) : Carries s t ch s' [u] :=
  .along hn hr hterminal htoken hchunk hbears fun _ hv => .inl (List.mem_singleton.mp hv)

theorem submits_step {r : Runnable} (hread : ∀ b n content, r = .readCompleted b n content →
      s.native.reading = some b) (hresponse : ∀ info, r = .responseStarted info →
      s.native.responded = false) :
    Carries s (.outside .cronet) (.submit r) { s with native := s.native.submit r }
      [.outside .cronet, .runnable .queued r] where
  passes := by
    intro u hu hone
    rcases List.mem_cons.mp hu with rfl | hu
    · cases hone
    · rw [List.mem_singleton] at hu
      subst hu
      refine .submits ?_ rfl rfl
      cases r with
      | responseStarted info => exact .inl (hresponse info rfl)
      | readCompleted b n content =>
        refine .inr ?_
        rw [hread b n content rfl]
        rfl
      | _ => cases hone
  owing := by
    rintro (hnone | hreading)
    · refine .inl (.inl ?_)
      cases r with
      | responseStarted info => cases hnone
      | _ => exact hnone
    · exact .inl (.inr (submit_reading hreading))
  bears := by
    intro u hu hbears
    rcases List.mem_cons.mp hu with rfl | hu
    · cases hbears
    · rw [List.mem_singleton] at hu
      subst hu
      cases r with
      | readCompleted b n content => exact .inr ⟨b, n, content, rfl⟩
      | _ => cases hbears
  terminal := .inl

theorem outsideStep_carries {who : Outside} (h : outsideStep s who ch = some (s', ts))
    (hread : ∀ b n content, ch = .submit (.readCompleted b n content) →
      s.native.reading = some b)
    (hresponse : ∀ info, ch = .submit (.responseStarted info) → s.native.responded = false) :
    Carries s (.outside who) ch s' ts := by
  revert h
  fun_cases outsideStep s who ch <;> first | exact of_none | apply of_some
  case case1 r _ =>
    refine submits_step ?_ ?_
    · rintro b n content rfl
      exact hread b n content rfl
    · rintro info rfl
      exact hresponse info rfl
  all_goals exact .still rfl rfl .inl rfl

theorem startStep_carries {p : Start} (h : startStep s p ch = some (s', ts)) :
    Carries s (.start p) ch s' ts := by
  revert h
  fun_cases startStep s p ch <;> first | exact of_none | apply of_some
  all_goals exact .still rfl rfl .inl rfl

theorem controlStep_carries {p : Control} (h : controlStep s p ch = some (s', ts)) :
    Carries s (.control p) ch s' ts := by
  revert h
  fun_cases controlStep s p ch <;> first | exact of_none | apply of_some
  all_goals first
    | exact .still rfl rfl .inl (after_token _ _)
    | exact .one rfl rfl rfl (Nat.le_refl _) rfl id
    | exact .still rfl rfl .inl rfl

theorem runnableStep_carries {stage : Stage} {r : Runnable}
    (h : runnableStep s stage r ch = some (s', ts)) : Carries s (.runnable stage r) ch s' ts := by
  revert h
  fun_cases runnableStep s stage r ch <;> first | exact of_none | apply of_some
  case case1 =>
    refine .one rfl rfl rfl (Nat.le_refl _) ?_ ?_
    · cases r <;> rfl
    · cases r <;> exact id
  case case2 =>
    cases r with
    | readCompleted b n content =>
      refine ⟨?_, .inl, fun _ _ _ => .inl rfl, .inl⟩
      intro u hu _
      exact .begins rfl (List.mem_singleton.mp hu)
    | _ => exact .one rfl rfl rfl (Nat.le_refl _) rfl id
  case case3 => exact .still rfl rfl .inl rfl
  all_goals
    refine .one rfl rfl rfl (callback_token r).le ?_ ?_
    · cases r <;> rfl
    · cases r <;> exact id

theorem callbackStep_carries {p : Callback} (h : callbackStep cfg s p ch = some (s', ts)) :
    Carries s (.callback p) ch s' ts := by
  revert h
  fun_cases callbackStep cfg s p ch <;> first | exact of_none | apply of_some
  all_goals first
    | exact .still rfl rfl .inl rfl
    | exact .one rfl rfl rfl (Nat.le_refl _) rfl (fun h => absurd h Bool.false_ne_true)
    | exact .one rfl rfl rfl (Nat.le_refl _) rfl (fun _ => rfl)
    | skip
  -- the chunk goes to the task that sends it
  case case17 b n hn bytes =>
    have hchunk : chunkOf n (some bytes) = some (bytes.take n) := if_neg hn
    refine .along rfl rfl rfl (u := .task (.send b (bytes.take n))) (Nat.le_refl _) hchunk.symm
      (fun _ => rfl) ?_
    intro v hv
    rcases List.mem_cons.mp hv with rfl | hv
    · exact .inl rfl
    · rw [List.mem_singleton.mp hv]
      exact .inr rfl

theorem readStep_carries {p : Read} (h : readStep s p ch = some (s', ts)) :
    Carries s (.read p) ch s' ts := by
  revert h
  fun_cases readStep s p ch <;> first | exact of_none | apply of_some
  case case1 site b code =>
    refine ⟨?_, ?_, ?_, .inl⟩
    · intro u hu hone
      rw [List.mem_singleton.mp hu] at hone
      cases hone
    · intro _
      exact .inr ⟨rfl, rfl⟩
    · intro u hu hbears
      rw [List.mem_singleton.mp hu] at hbears
      cases hbears
  all_goals first
    | exact .still rfl rfl .inl rfl
    | exact .still rfl rfl (fun h => .inl (forget_terminal _ _ ▸ h)) (leave_token _)
    | exact .still rfl rfl (fun h => .inl (forget_terminal _ _ ▸ h)) rfl
    | exact .still rfl rfl .inl (leave_token _)

theorem terminalStep_carries {p : Terminal} (h : terminalStep s p ch = some (s', ts)) :
    Carries s (.terminal p) ch s' ts := by
  revert h
  fun_cases terminalStep s p ch <;> first | exact of_none | apply of_some
  all_goals first
    | exact .still rfl rfl .inl rfl
    | exact .still rfl rfl (fun _ => .inr ⟨_, rfl⟩) rfl

theorem taskStep_carries {p : Task} (h : taskStep cfg s p ch = some (s', ts)) :
    Carries s (.task p) ch s' ts := by
  revert h
  fun_cases taskStep cfg s p ch <;> first | exact of_none | apply of_some
  case case6 b chunk _ _ =>
    refine ⟨?_, .inl, fun _ _ _ => .inl rfl, .inl⟩
    intro u hu _
    exact .resumes rfl (List.mem_singleton.mp hu)
  all_goals first
    | exact .still rfl rfl .inl rfl
    | (refine .still ?_ ?_ ?_ rfl
       · rw [Shared.releaseArc_native]
       · rw [Shared.releaseArc_native]
       · rw [Shared.releaseArc_state]
         exact .inl)

theorem uploadStep_carries {p : Upload} (h : uploadStep cfg s p ch = some (s', ts)) :
    Carries s (.upload p) ch s' ts := by
  revert h
  fun_cases uploadStep cfg s p ch <;> first | exact of_none | apply of_some
  all_goals exact .still rfl rfl .inl rfl

theorem cleanupStep_carries {p : Cleanup} (h : cleanupStep s p ch = some (s', ts)) :
    Carries s (.cleanup p) ch s' ts := by
  revert h
  fun_cases cleanupStep s p ch <;> first | exact of_none | apply of_some
  all_goals first
    | exact .still rfl rfl .inl rfl
    | (refine .still ?_ ?_ ?_ rfl
       · rw [Shared.releaseArc_native]
       · rw [Shared.releaseArc_native]
       · rw [Shared.releaseArc_state]
         exact .inl)

theorem executeStep_carries {p : Execute} (h : executeStep s p ch = some (s', ts)) :
    Carries s (.execute p) ch s' ts := by
  revert h
  fun_cases executeStep s p ch <;> first | exact of_none | apply of_some
  all_goals exact .still rfl rfl .inl rfl

/-- **The right to read is handed on with the chunk.** -/
theorem step_carries (h : step cfg s t ch = some (s', ts))
    (hread : ∀ b n content, ch = .submit (.readCompleted b n content) →
      s.native.reading = some b)
    (hresponse : ∀ info, ch = .submit (.responseStarted info) → s.native.responded = false) :
    Carries s t ch s' ts := by
  cases t with
  | outside who => exact outsideStep_carries h hread hresponse
  | start p => exact startStep_carries h
  | shutdown p =>
    refine .still ?_ ?_ ?_ ?_ <;> revert h <;> rw [step] <;>
      fun_cases shutdownStep s p ch <;> intro h <;> cases h <;> first | rfl | exact .inl
  | control p => exact controlStep_carries h
  | runnable stage r => exact runnableStep_carries h
  | callback p => exact callbackStep_carries h
  | read p => exact readStep_carries h
  | terminal p => exact terminalStep_carries h
  | task p => exact taskStep_carries h
  | upload p => exact uploadStep_carries h
  | cleanup p => exact cleanupStep_carries h
  | execute p => exact executeStep_carries h

/-- A body that was dropped stays dropped. -/
theorem step_receiver (h : step cfg s t ch = some (s', ts)) :
    s'.body.receiver = true → s.body.receiver = true := by
  revert h
  cases t <;> simp only [step]
  case outside who =>
    fun_cases outsideStep s who ch <;> first | exact of_none | apply of_some
    all_goals exact id
  case start p => fun_cases startStep s p ch <;> first | exact of_none | (apply of_some; exact id)
  case shutdown p =>
    fun_cases shutdownStep s p ch <;> first | exact of_none | apply of_some
    all_goals exact id
  case control p =>
    fun_cases controlStep s p ch <;> first | exact of_none | apply of_some
    all_goals exact id
  case runnable stage r =>
    fun_cases runnableStep s stage r ch <;> first | exact of_none | (apply of_some; exact id)
  case callback p =>
    fun_cases callbackStep cfg s p ch <;> first | exact of_none | apply of_some
    all_goals exact id
  case read p => fun_cases readStep s p ch <;> first | exact of_none | (apply of_some; exact id)
  case terminal p =>
    fun_cases terminalStep s p ch <;> first | exact of_none | apply of_some
    all_goals exact id
  case task p =>
    fun_cases taskStep cfg s p ch <;> first | exact of_none | apply of_some
    all_goals first
      | exact id
      | exact fun h => s.releaseArc_receiver.symm.trans h
  case upload p =>
    fun_cases uploadStep cfg s p ch <;> first | exact of_none | apply of_some
    all_goals exact id
  case cleanup p =>
    fun_cases cleanupStep s p ch <;> first | exact of_none | apply of_some
    all_goals first
      | exact id
      | exact fun h => s.releaseArc_receiver.symm.trans h
  case execute p =>
    fun_cases executeStep s p ch <;> first | exact of_none | apply of_some
    all_goals first
      | exact id
      | exact fun h => absurd h Bool.false_ne_true

/-! ## The invariant -/

theorem items_snoc (tr : List Event) (e : Event) :
    items (tr ++ [e]) = items tr ++ e.item.toList := by
  rw [items, List.filterMap_append]
  cases he : e.item with
  | none => rw [List.filterMap_cons_none he]; rfl
  | some item => rw [List.filterMap_cons_some he]; rfl

theorem chunks_snoc (tr : List Event) (e : Event) :
    chunks (tr ++ [e]) = chunks tr ++ e.chunk.toList := by
  rw [chunks, List.filterMap_append]
  cases he : e.chunk with
  | none => rw [List.filterMap_cons_none he]; rfl
  | some chunk => rw [List.filterMap_cons_some he]; rfl

theorem reads_snoc (tr : List Event) (e : Event) :
    reads (tr ++ [e]) = reads tr ++ e.brings.toList := by
  rw [reads, List.filterMap_append]
  cases he : e.brings with
  | none => rw [List.filterMap_cons_none he]; rfl
  | some chunk => rw [List.filterMap_cons_some he]; rfl

/-- Where the chunks are. -/
structure Ordered (s : Shared) (threads : Multiset Thread) : Prop where
  /-- Who has the right to read carries the one chunk that is not yet in the channel. -/
  carried : ∀ t ∈ threads, t.token = 1 → reads s.trace = chunks s.trace ++ t.chunk.toList
  /-- While Cronet owes a completion every chunk was sent. -/
  owing : s.native.Owing → reads s.trace = chunks s.trace
  /-- The chunks are a beginning of what was read. -/
  order : chunks s.trace <+: reads s.trace

/-- The body is in the order in which it was read. -/
structure BodyInv (c : Config Shared Thread) : Prop where
  /-- One thread at most has the right to read, or the native side. -/
  token : (!c.shared.native.responded).toNat + c.shared.native.reading.isSome.toNat +
    total Thread.token c.threads ≤ 1
  /-- The chunks are in order. -/
  ordered : Ordered c.shared c.threads
  /-- A terminal callback was submitted. -/
  terminal : c.shared.context.state.terminal = true →
    c.shared.native.terminalSubmitted = true

theorem bodyInv_init : BodyInv start.config where
  token := by simp [start, Listed.config, Thread.token]
  ordered :=
    { carried := by simp [start, Listed.config, Thread.token]
      owing := fun _ => rfl
      order := List.nil_prefix }
  terminal := by simp [start, Listed.config]

/-- Who has the right to read has it alone. -/
theorem BodyInv.alone (hb : BodyInv ⟨s, t ::ₘ rest⟩) (ht : t.token = 1) :
    (∀ u ∈ rest, u.token = 0) ∧ ¬ s.native.Owing := by
  have htoken : (!s.native.responded).toNat + s.native.reading.isSome.toNat +
    total Thread.token (t ::ₘ rest) ≤ 1 := hb.token
  rw [total_cons, ht] at htoken
  refine ⟨?_, ?_⟩
  · refine total_eq_zero.mp ?_
    omega
  · rintro (hnone | hreading)
    · rw [hnone, Bool.not_false, Bool.toNat_true] at htoken
      omega
    · rw [hreading, Bool.toNat_true] at htoken
      omega

/-- Neither a completion begins nor a chunk is put into the channel. -/
theorem Ordered.same (ho : Ordered s (t ::ₘ rest)) (hreads : reads s'.trace = reads s.trace)
    (hchunks : chunks s'.trace = chunks s.trace)
    (hpass : ∀ u ∈ ts, u.token = 1 →
      t.token = 1 ∧ u.chunk = t.chunk ∨ s.native.Owing ∧ u.chunk = none)
    (howing : s'.native.Owing → s.native.Owing ∨ t.token = 1 ∧ t.chunk = none) :
    Ordered s' ((ts : Multiset Thread) + rest) := by
  have hmem : t ∈ t ::ₘ rest := Multiset.mem_cons_self t rest
  refine ⟨?_, ?_, ?_⟩
  · rw [hreads, hchunks]
    refine forall_step ho.carried ?_ (fun u _ hu => hu)
    intro ht u hu hone
    rcases hpass u hu hone with ⟨htoken, hchunk⟩ | ⟨hnative, hchunk⟩
    · rw [hchunk]
      exact ht htoken
    · rw [hchunk]
      exact (ho.owing hnative).trans (List.append_nil _).symm
  · intro hnative
    rw [hreads, hchunks]
    rcases howing hnative with hbefore | ⟨htoken, hnone⟩
    · exact ho.owing hbefore
    · have hcarried := ho.carried t hmem htoken
      rw [hnone] at hcarried
      exact hcarried.trans (List.append_nil _)
  · rw [hreads, hchunks]
    exact ho.order

/-- The thread with the right to read becomes `u`, and no other has it. -/
theorem Ordered.moved (hone : ∀ v ∈ rest, v.token = 0)
    (hcarried : reads s'.trace = chunks s'.trace ++ u.chunk.toList) (howing : ¬ s'.native.Owing) :
    Ordered s' (([u] : List Thread) + rest) := by
  refine ⟨?_, fun hnative => absurd hnative howing, ⟨_, hcarried.symm⟩⟩
  intro v hv htoken
  rcases Multiset.mem_add.mp hv with hv | hv
  · rw [List.mem_singleton.mp (Multiset.mem_coe.mp hv)]
    exact hcarried
  · rw [hone v hv] at htoken
    cases htoken

theorem send_goes {b : BufferId} {chunk : Bytes}
    (h : step cfg s (.task (.send b chunk)) ch = some (s', ts)) : ch = .go := by
  cases ch <;> simp_all [step, taskStep]

/-- A completion begins. -/
theorem BodyInv.begins {b : BufferId} {n : Nat} {content : Option Bytes}
    (hb : BodyInv ⟨s, .runnable .running (.readCompleted b n content) ::ₘ rest⟩)
    (h : step cfg s (.runnable .running (.readCompleted b n content)) ch = some (s', ts)) :
    Ordered s' ((ts : Multiset Thread) + rest) := by
  obtain ⟨hnone, hnative⟩ := hb.alone rfl
  have hcarried : reads s.trace = chunks s.trace :=
    (hb.ordered.carried _ (Multiset.mem_cons_self _ _) rfl).trans (List.append_nil _)
  by_cases hgo : ch = .go
  · subst hgo
    cases h
    refine .moved hnone ?_ hnative
    rw [reads_snoc, chunks_snoc, hcarried]
    exact congrArg (· ++ _) (List.append_nil _).symm
  · obtain ⟨rfl, rfl⟩ := running_skips h hgo
    exact hb.ordered.same rfl rfl (fun u hu => absurd hu List.not_mem_nil) .inl

/-- A chunk is put into the channel, or given up. -/
theorem BodyInv.sends {b : BufferId} {chunk : Bytes}
    (hb : BodyInv ⟨s, .task (.send b chunk) ::ₘ rest⟩)
    (h : step cfg s (.task (.send b chunk)) ch = some (s', ts)) :
    Ordered s' ((ts : Multiset Thread) + rest) := by
  obtain ⟨hnone, hnative⟩ := hb.alone rfl
  have hcarried : reads s.trace = chunks s.trace ++ [chunk] :=
    hb.ordered.carried _ (Multiset.mem_cons_self _ _) rfl
  obtain rfl := send_goes h
  rw [step, taskStep] at h
  split_ifs at h with hreceiver hroom
  · cases h
    refine .moved hnone ?_ hnative
    rw [reads_snoc, chunks_snoc, hcarried]
    rfl
  · cases h
    refine hb.ordered.same rfl rfl ?_ .inl
    intro u hu hone
    rw [List.mem_singleton.mp hu] at hone
    cases hone

theorem bodyInv_step (hi : LifetimeInv c) (hb : BodyInv c)
    (hs : Step (step cfg) AnswersReads c c') : BodyInv c' := by
  obtain ⟨⟨hresponse, hread⟩, hn⟩ := hs
  rename_i s s' t ts rest ch
  have hcarries := step_carries hn (fun b n content => hread b n content) hresponse
  have hmem : t ∈ t ::ₘ rest := Multiset.mem_cons_self t rest
  have hframe := step_frame hn
  refine ⟨budget_step hb.token (step_budget hn hresponse hread).token, ?_, ?_⟩
  · by_cases hbegins : ∃ b n content, t = .runnable .running (.readCompleted b n content)
    · obtain ⟨b, n, content, rfl⟩ := hbegins
      exact hb.begins hn
    by_cases hsends : ∃ b chunk, t = .task (.send b chunk)
    · obtain ⟨b, chunk, rfl⟩ := hsends
      exact hb.sends hn
    have hsame : reads s'.trace = reads s.trace ∧ chunks s'.trace = chunks s.trace := by
      rcases step_event hn with heq | ⟨e, heq, hcause⟩
      · rw [heq]
        exact ⟨rfl, rfl⟩
      · rw [heq, reads_snoc, chunks_snoc]
        cases e with
        | callbackBegun r =>
          cases r with
          | readCompleted b n content => exact absurd ⟨b, n, content, hcause⟩ hbegins
          | _ => exact ⟨List.append_nil _, List.append_nil _⟩
        | pushed chunk =>
          obtain ⟨b, ht⟩ := hcause
          exact absurd ⟨b, chunk, ht⟩ hsends
        | _ => exact ⟨List.append_nil _, List.append_nil _⟩
    refine hb.ordered.same hsame.1 hsame.2 ?_ hcarries.owing
    intro u hu hone
    cases hcarries.passes u hu hone with
    | along htoken hchunk => exact .inl ⟨htoken, hchunk⟩
    | submits howing hchunk => exact .inr ⟨howing, hchunk⟩
    | begins ht => exact absurd ⟨_, _, _, ht⟩ hbegins
    | resumes ht => exact absurd ⟨_, _, ht⟩ hsends
  · intro hterminal
    rcases hcarries.terminal hterminal with hbefore | ⟨fallback, ht⟩
    · exact hframe.terminalSubmitted (hb.terminal hbefore)
    · subst ht
      exact hframe.terminalSubmitted (hi.signals.terminalBegun (hi.sound _ hmem))

theorem bodyInv_reachable (h : Reachable (step cfg) AnswersReads start.config c) :
    BodyInv c := by
  induction h with
  | refl => exact bodyInv_init
  | tail hr hs ih => exact bodyInv_step (lifetimeInv_reachable hr) ih hs

/-! ## The error is the last item -/

/-- Cronet hands over no completion after the terminal callback. -/
def CompletesInTime : Policy Shared Thread Choice := fun c _ ch =>
  ∀ b n content, ch = .submit (.readCompleted b n content) →
    c.shared.native.terminalSubmitted = false

/-- What is documented of Cronet's reads and of its terminal callback. -/
def BodyContract : Policy Shared Thread Choice := fun c t ch =>
  BufferContract c t ch ∧ CompletesInTime c t ch

/-- When an error is put into the channel, no completion is on its way there. -/
def ErrorLast : Policy Shared Thread Choice := fun c t _ =>
  ∀ e, t = .task (.sendError e) → c.shared.body.receiver = true →
    ∀ u ∈ c.threads, u.bears = false

/-- What is documented of Cronet's reads, and when an error is sent. -/
def BodyPolicy : Policy Shared Thread Choice := fun c t ch =>
  BodyContract c t ch ∧ ErrorLast c t ch

/-- No chunk comes behind an error. -/
structure LastInv (c : Config Shared Thread) : Prop where
  /-- The errors stand behind the chunks. -/
  items : ∃ errors : List Error,
    items c.shared.trace = (chunks c.shared.trace).map .ok ++ errors.map .error ∧
    errors.length = c.shared.trace.countP Event.isBodyError
  /-- Behind an error nobody has a chunk. -/
  last : 0 < c.shared.trace.countP Event.isBodyError → ∀ t ∈ c.threads, t.bears = false

theorem lastInv_init : LastInv start.config where
  items := ⟨[], rfl, rfl⟩
  last := by
    intro hpos
    exact absurd hpos (Nat.lt_irrefl 0)

theorem sendError_goes {e : Error} (h : step cfg s (.task (.sendError e)) ch = some (s', ts)) :
    ch = .go := by
  cases ch <;> simp_all [step, taskStep]

/-- An error is put into the channel for a consumer. -/
theorem bodyError_sent {e : Error} (h : step cfg s (.task (.sendError e)) ch = some (s', ts))
    (htrace : s'.trace = s.trace ++ [.bodyError e]) : s.body.receiver = true := by
  obtain rfl := sendError_goes h
  rw [step, taskStep] at h
  split_ifs at h with hreceiver hroom
  · exact hreceiver
  · cases h
    exact absurd (List.self_eq_append_right.mp htrace) (List.cons_ne_nil _ _)

/-- From the last step of the terminal callback on it has been handed over. -/
theorem submitted_of_error (hr : ReportInv ⟨s, t ::ₘ rest⟩) (hb : BodyInv ⟨s, t ::ₘ rest⟩)
    (h : 0 < s.trace.countP Event.isBodyError + t.toBodyError) :
    s.native.terminalSubmitted = true := by
  refine hb.terminal ?_
  have hone : (!s.context.state.terminal).toNat + s.trace.countP Event.isBodyError +
    total Thread.toBodyError (t ::ₘ rest) ≤ 1 := hr.bodyError
  rw [total_cons] at hone
  show s.context.state.terminal = true
  cases hterminal : s.context.state.terminal with
  | true => rfl
  | false =>
    rw [hterminal, Bool.not_false, Bool.toNat_true] at hone
    omega

theorem lastInv_step (hr : ReportInv c) (hb : BodyInv c) (hl : LastInv c)
    (hs : Step (step cfg) BodyPolicy c c') : LastInv c' := by
  obtain ⟨⟨⟨⟨-, ⟨hresponse, hread⟩, -⟩, hcompletes⟩, herror⟩, hn⟩ := hs
  rename_i s s' t ts rest ch
  have hcarries := step_carries hn (fun b n content => hread b n content) hresponse
  have hmem : t ∈ t ::ₘ rest := Multiset.mem_cons_self t rest
  obtain ⟨errors, hitems, hlength⟩ := hl.items
  -- nobody gets on the way once the error is in the channel or on its way there
  have hquiet : 0 < s.trace.countP Event.isBodyError + t.toBodyError →
      (∀ u ∈ t ::ₘ rest, u.bears = false) →
      ∀ u ∈ (ts : Multiset Thread) + rest, u.bears = false := by
    intro hpos hnone u hu
    rcases Multiset.mem_add.mp hu with hu | hu
    · by_contra hbears
      rcases hcarries.bears u (Multiset.mem_coe.mp hu) (by simpa using hbears) with
        ht | ⟨b, n, content, hch⟩
      · rw [hnone t hmem] at ht
        cases ht
      · have hsubmitted := submitted_of_error hr hb hpos
        have hbefore : s.native.terminalSubmitted = false := hcompletes b n content hch
        rw [hsubmitted] at hbefore
        cases hbefore
    · exact hnone u (Multiset.mem_cons_of_mem hu)
  rcases step_event hn with heq | ⟨e, heq, hcause⟩
  · refine ⟨⟨errors, ?_, ?_⟩, ?_⟩
    · rw [heq]
      exact hitems
    · rw [heq]
      exact hlength
    · intro hpos
      rw [heq] at hpos
      exact hquiet (Nat.add_pos_left hpos _) (hl.last hpos)
  · have hsame : e.item = none → e.chunk = none → e.isBodyError = false →
        LastInv ⟨s', (ts : Multiset Thread) + rest⟩ := by
      intro hitem hchunk hnot
      have hcount : s'.trace.countP Event.isBodyError = s.trace.countP Event.isBodyError := by
        rw [heq, List.countP_append, List.countP_singleton, hnot]
        rfl
      refine ⟨⟨errors, ?_, ?_⟩, ?_⟩
      · rw [heq, items_snoc, chunks_snoc, hitem, hchunk, hitems]
        exact (List.append_nil _).trans (by rw [Option.toList_none, List.append_nil])
      · exact hlength.trans hcount.symm
      · intro hpos
        have hpos' : 0 < s.trace.countP Event.isBodyError := hcount ▸ hpos
        exact hquiet (Nat.add_pos_left hpos' _) (hl.last hpos')
    cases e with
    | pushed chunk =>
      obtain ⟨b, rfl⟩ := hcause
      have hcount : s'.trace.countP Event.isBodyError = s.trace.countP Event.isBodyError := by
        rw [heq, List.countP_append]
        rfl
      -- the sender is on its way, so no error is in the channel yet
      have hzero : s.trace.countP Event.isBodyError = 0 := by
        by_contra hne
        have hbears := hl.last (Nat.pos_of_ne_zero hne) _ hmem
        cases hbears
      rw [hzero, List.length_eq_zero_iff] at hlength
      subst hlength
      refine ⟨⟨[], ?_, ?_⟩, ?_⟩
      · rw [heq, items_snoc, chunks_snoc, hitems, List.map_nil, List.append_nil, List.append_nil,
          List.map_append]
        rfl
      · exact (hcount.trans hzero).symm
      · intro hpos
        rw [hcount, hzero] at hpos
        exact absurd hpos (Nat.lt_irrefl 0)
    | bodyError e =>
      obtain rfl := hcause
      have hnone := herror e rfl (bodyError_sent hn heq)
      refine ⟨⟨errors ++ [e], ?_, ?_⟩, fun _ => hquiet (Nat.add_pos_right _ Nat.one_pos) hnone⟩
      · rw [heq, items_snoc, chunks_snoc, hitems, List.map_append, List.append_assoc,
          show (Event.bodyError e).chunk = none from rfl, Option.toList_none, List.map_nil,
          List.append_nil, List.map_append]
        rfl
      · rw [heq, List.length_append, hlength, List.countP_append]
        rfl
    | _ => exact hsame rfl rfl rfl

theorem lastInv_reachable (h : Reachable (step cfg) BodyPolicy start.config c) : LastInv c := by
  induction h with
  | refl => exact lastInv_init
  | tail hr hs ih =>
    have hreads : Reachable (step cfg) AnswersReads start.config _ :=
      Reachable.mono (fun _ _ _ ha => ha.1.1.2.1) hr
    exact lastInv_step (reportInv_reachable hr) (bodyInv_reachable hreads) ih hs

/-- What a consumer is handed by `next_chunk` and `poll_next`, when what has come through
the channel is what was put into it. -/
def BodyInOrder (c : Config Shared Thread) : Prop :=
  ∀ l : List (Reading.Action UInt8), (∀ a ∈ l, a.reads = false) →
    (Reading.sent .responseBody {} l).filterMap Reading.Item.result = items c.shared.trace →
    WellEnded (reads c.shared.trace) (Reading.handed .responseBody {} l)

theorem WellEnded.part {order : List Bytes} {l k : List (Result Bytes)} (h : WellEnded order l)
    (hk : k <+: l) : WellEnded order k := by
  obtain ⟨before, errors, rfl, hbefore, hlength⟩ := h
  refine ⟨before.take k.length, errors.take (k.length - before.length), ?_,
    (List.take_prefix _ _).trans hbefore, (List.length_take_le' _ _).trans hlength⟩
  rw [List.map_take, List.map_take, ← List.length_map (.ok : Bytes → Result Bytes),
    ← List.take_append]
  exact List.prefix_iff_eq_take.mp hk

/-- **The error ends the body.** In every run in which no completion is on its way to the
channel when the error is put there, a consumer is handed the chunks in read order, then one
error at most, and nothing behind it. -/
theorem body_in_order (h : Reachable (step cfg) BodyPolicy start.config c) : BodyInOrder c := by
  intro l hl hsent
  have hb : BodyInv c := bodyInv_reachable (Reachable.mono (fun _ _ _ ha => ha.1.1.2.1) h)
  obtain ⟨errors, hitems, hlength⟩ := (lastInv_reachable h).items
  have hone : errors.length ≤ 1 := by
    have hbudget := (reportInv_reachable h).bodyError
    omega
  have hwell : WellEnded (reads c.shared.trace) (items c.shared.trace) :=
    ⟨_, errors, hitems, hb.ordered.order, hone⟩
  refine hwell.part ?_
  rw [← hsent]
  exact Reading.handed_sent l {} ⟨rfl, rfl⟩ List.not_mem_nil hl

/-! ## Two orders -/

/-- `CompletesInTime` as a test. -/
def completesInTime (c : Listed Shared Thread) : Choice → Bool
  | .submit (.readCompleted _ _ _) => !c.shared.native.terminalSubmitted
  | _ => true

/-- `BodyContract` as a test. -/
def bodyContract (c : Listed Shared Thread) (t : Thread) (ch : Choice) : Bool :=
  bufferContract c t ch && completesInTime c ch

/-- `ErrorLast` as a test. -/
def errorLast (c : Listed Shared Thread) : Thread → Bool
  | .task (.sendError _) => !c.shared.body.receiver || c.threads.all fun u => !u.bears
  | _ => true

/-- `BodyPolicy` as a test. -/
def bodyPolicy (c : Listed Shared Thread) (t : Thread) (ch : Choice) : Bool :=
  bodyContract c t ch && errorLast c t

theorem bodyContract_sound (c : Listed Shared Thread) (t : Thread) (ch : Choice)
    (h : bodyContract c t ch = true) : BodyContract c.config t ch := by
  rw [bodyContract, Bool.and_eq_true] at h
  obtain ⟨hcontract, hcompletes⟩ := h
  refine ⟨bufferContract_sound c t ch hcontract, ?_⟩
  rintro b n content rfl
  exact Bool.not_eq_true' _ |>.mp hcompletes

theorem bodyPolicy_sound (c : Listed Shared Thread) (t : Thread) (ch : Choice)
    (h : bodyPolicy c t ch = true) : BodyPolicy c.config t ch := by
  rw [bodyPolicy, Bool.and_eq_true] at h
  obtain ⟨hcontract, hlast⟩ := h
  refine ⟨bodyContract_sound c t ch hcontract, ?_⟩
  rintro e rfl hreceiver u hu
  have hopen : c.shared.body.receiver = true := hreceiver
  rw [errorLast, hopen, Bool.not_true, Bool.false_or, List.all_eq_true] at hlast
  exact Bool.not_eq_true' _ |>.mp (hlast u (Multiset.mem_coe.mp hu))

/-- A completion has handed its chunk to a task when the request is cancelled and the
terminal callback has spawned another. -/
def twoSenders (between : Schedule) : Schedule :=
  readsFirst ++ [(.read (.returned .callback 0 none), go 4)] ++ completes ++
  [(.callback (.account 0 1 (some [7])), go 2), (.callback .leave, go 3)] ++ between ++
  cancels ++ endsCanceled

/-- The chunk is put into the channel before the cancellation. -/
def errorBehind : Schedule :=
  twoSenders [(.task (.send 0 [7]), go 1)] ++ [(.task (.sendError .canceled), go 1)]

theorem body_in_order_cancels :
    items (Pool.play (step {}) bodyPolicy start errorBehind).config.shared.trace =
      [.ok [7], .error .canceled] ∧
    BodyInOrder (Pool.play (step {}) bodyPolicy start errorBehind).config := by
  refine ⟨by decide +kernel, ?_⟩
  exact body_in_order (c := (Pool.play (step {}) bodyPolicy start errorBehind).config)
    (play_reachable bodyPolicy_sound errorBehind Reachable.start)

/-- The task with the error comes first. -/
def chunkBehind : Schedule :=
  twoSenders [] ++ [(.task (.sendError .canceled), go 1), (.task (.send 0 [7]), go 1)]

/-- What comes through the channel then, and two calls of `next_chunk`. -/
def consumesBoth : List (Reading.Action UInt8) :=
  [.arrives (.error .canceled), .arrives (.chunk [7]), .nextChunk, .nextChunk]

/-- **A chunk comes behind the error that ended the body.** -/
theorem chunk_after_error :
    ∃ c, Reachable (step {}) BodyContract start.config c ∧ ¬ BodyInOrder c := by
  refine ⟨(Pool.play (step {}) bodyContract start chunkBehind).config,
    play_reachable bodyContract_sound chunkBehind Reachable.start, ?_⟩
  intro hinorder
  have hitems : items (Pool.play (step {}) bodyContract start chunkBehind).config.shared.trace =
      [.error .canceled, .ok [7]] := by
    decide +kernel
  obtain ⟨before, errors, hhanded, -, -⟩ := hinorder consumesBoth (by decide) (by rw [hitems]; rfl)
  have hboth : Reading.handed .responseBody {} consumesBoth = [.error .canceled, .ok [7]] := rfl
  rw [hboth] at hhanded
  -- the error comes first, so no chunk comes before it, and what is behind it are errors
  cases before with
  | nil =>
    cases errors with
    | nil => cases hhanded
    | cons e errors =>
      cases errors with
      | nil => cases hhanded
      | cons e' errors => cases hhanded
  | cons chunk before => cases hhanded

end TokioCronet.Request
