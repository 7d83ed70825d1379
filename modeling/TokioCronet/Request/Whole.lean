import TokioCronet.Request.Consumer
import TokioCronet.Request.Outcome
import TokioCronet.Request.Senders

/-!
# A response that is returned is whole

`execute_request` reads the body until its channel has no sender left, and takes that for the
end. An error of the request comes through the same channel, from a task that has a sender of
its own, and so does every chunk. When no sender is left the terminal callback is over, its
error was put into the channel if it had one, and no chunk is on its way; and after a success,
which answers a `Read`, nothing more is read.
-/

namespace TokioCronet.Request

open Pool

variable {cfg : Settings} {s s' : Shared} {t u : Thread} {ch : Choice} {ts : List Thread}
  {rest : Multiset Thread} {c c' : Config Shared Thread}

/-! ## What a returned response says -/

/-- Cronet ends the request with one terminal callback. -/
def OneTerminal (tr : List Event) : Prop :=
  ∀ r r', .callbackBegun r ∈ tr → .callbackBegun r' ∈ tr →
    r.fallback.isSome = true → r'.fallback.isSome = true → r = r'

/-- The request succeeded without an error, and the body is all that was read. -/
structure Whole (tr : List Event) (body : Bytes) : Prop where
  /-- `on_succeeded` called `terminal`, which found that no error had been recorded. -/
  succeeded : ∃ before after, tr = before ++ .consumed none none :: after ∧
    .callbackBegun .succeeded ∈ before ∧ ∀ e, .recorded e ∉ before
  /-- `terminal` looks once. -/
  once : tr.countP Event.isConsumed = 1
  /-- Where Cronet makes one terminal callback, it was `on_succeeded`. -/
  terminal : OneTerminal tr → ∀ r, .callbackBegun r ∈ tr → r.fallback.isSome = true →
    r = .succeeded
  /-- The body has the bytes of every completion, in read order. -/
  body : body = (reads tr).flatten

/-! ## After a success -/

/-- The callback `on_succeeded` before it has a lease. -/
def Thread.succeeds : Thread → Bool
  | .runnable _ .succeeded => true
  | _ => false

theorem submit_succeeded {n : Native} {r : Runnable} (h : r ≠ .succeeded) :
    (n.submit r).succeeded = n.succeeded := by
  cases r <;> first | rfl | exact absurd rfl h

@[simp] theorem begin_succeeded (n : Native) (r : Runnable) :
    (n.begin r).succeeded = n.succeeded := by
  cases r <;> rfl

@[simp] theorem read_succeeded (n : Native) (b : BufferId) (code : Option ResultCode) :
    (n.read b code).succeeded = n.succeeded := by
  fun_cases Native.read n b code <;> rfl

theorem succeeds_none (h : (ts.all fun u => !u.succeeds) = true) :
    ∀ u ∈ ts, u.succeeds = true → t.succeeds = true := by
  intro u hu hs
  have hnot := List.all_eq_true.mp h u hu
  rw [hs] at hnot
  cases hnot

/-- Cronet alone submits a success. -/
theorem step_succeeds (h : step cfg s t ch = some (s', ts)) :
    (s'.native.succeeded = s.native.succeeded ∧ ∀ u ∈ ts, u.succeeds = true → t.succeeds = true) ∨
    ch = .submit .succeeded ∧ t = .outside .cronet ∧
      s' = { s with native := s.native.submit .succeeded } ∧
      ts = [.outside .cronet, .runnable .queued .succeeded] := by
  revert h
  cases t <;> simp only [step]
  case outside who =>
    fun_cases outsideStep s who ch <;> first | exact of_none | apply of_some
    case case1 r _ =>
      by_cases hr : r = .succeeded
      · subst hr
        exact .inr ⟨rfl, rfl, rfl, rfl⟩
      · refine .inl ⟨submit_succeeded hr, ?_⟩
        intro u hu hs
        rcases List.mem_cons.mp hu with rfl | hu
        · cases hs
        · rw [List.mem_singleton.mp hu] at hs
          cases r <;> first | exact absurd rfl hr | cases hs
    all_goals exact .inl ⟨rfl, succeeds_none rfl⟩
  case start p =>
    fun_cases startStep s p ch <;> first | exact of_none | apply of_some
    all_goals exact .inl ⟨rfl, succeeds_none rfl⟩
  case shutdown p =>
    fun_cases shutdownStep s p ch <;> first | exact of_none | apply of_some
    all_goals exact .inl ⟨rfl, succeeds_none rfl⟩
  case control p =>
    fun_cases controlStep s p ch <;> first | exact of_none | apply of_some
    all_goals first
      | exact .inl ⟨rfl, succeeds_none rfl⟩
      | (refine .inl ⟨rfl, succeeds_none ?_⟩; unfold GatedOp.after; split <;> rfl)
  case runnable stage r =>
    fun_cases runnableStep s stage r ch <;> first | exact of_none | apply of_some
    all_goals first
      | exact .inl ⟨rfl, succeeds_none rfl⟩
      | (refine .inl ⟨rfl, succeeds_none ?_⟩; cases r <;> rfl)
      | (refine .inl ⟨?_, List.forall_mem_singleton.mpr ?_⟩
         · first | rfl | exact begin_succeeded _ _
         · cases r <;> exact fun h => h)
  case callback p =>
    fun_cases callbackStep cfg s p ch <;> first | exact of_none | apply of_some
    all_goals exact .inl ⟨rfl, succeeds_none rfl⟩
  case read p =>
    fun_cases readStep s p ch <;> first | exact of_none | apply of_some
    all_goals first
      | exact .inl ⟨rfl, succeeds_none rfl⟩
      | exact .inl ⟨read_succeeded _ _ _, succeeds_none rfl⟩
      | (refine .inl ⟨rfl, succeeds_none ?_⟩; unfold Site.leave; split <;> rfl)
  case terminal p =>
    fun_cases terminalStep s p ch <;> first | exact of_none | apply of_some
    all_goals exact .inl ⟨rfl, succeeds_none rfl⟩
  case task p =>
    fun_cases taskStep cfg s p ch <;> first | exact of_none | apply of_some
    all_goals first
      | exact .inl ⟨rfl, succeeds_none rfl⟩
      | exact .inl ⟨congrArg _ (Shared.releaseArc_native s), succeeds_none rfl⟩
  case upload p =>
    fun_cases uploadStep cfg s p ch <;> first | exact of_none | apply of_some
    all_goals exact .inl ⟨rfl, succeeds_none rfl⟩
  case cleanup p =>
    fun_cases cleanupStep s p ch <;> first | exact of_none | apply of_some
    all_goals first
      | exact .inl ⟨rfl, succeeds_none rfl⟩
      | exact .inl ⟨congrArg _ (Shared.releaseArc_native s), succeeds_none rfl⟩
  case execute p =>
    fun_cases executeStep s p ch <;> first | exact of_none | apply of_some
    all_goals exact .inl ⟨rfl, succeeds_none rfl⟩

/-- After a success nobody has the right to read. -/
structure SuccessInv (c : Config Shared Thread) : Prop where
  /-- The right is used up, and what was read is in the channel. -/
  spent : c.shared.native.succeeded = true →
    (!c.shared.native.responded).toNat + c.shared.native.reading.isSome.toNat +
      total Thread.token c.threads = 0 ∧ reads c.shared.trace = chunks c.shared.trace
  /-- The callback comes from Cronet. -/
  submitted : ∀ t ∈ c.threads, t.succeeds = true → c.shared.native.succeeded = true
  /-- So it does once it has begun. -/
  begun : .callbackBegun .succeeded ∈ c.shared.trace → c.shared.native.succeeded = true

theorem successInv_init : SuccessInv start.config where
  spent := by simp [start, Listed.config]
  submitted := by simp [start, Listed.config, Thread.succeeds]
  begun := by simp [start, Listed.config]

/-- Without the right to read, no completion begins and no chunk is sent. -/
theorem order_kept (h : step cfg s t ch = some (s', ts)) (ht : t.token = 0) :
    reads s'.trace = reads s.trace ∧ chunks s'.trace = chunks s.trace := by
  rcases step_event h with heq | ⟨e, heq, hcause⟩
  · rw [heq]
    exact ⟨rfl, rfl⟩
  · rw [heq, reads_snoc, chunks_snoc]
    cases e with
    | callbackBegun r =>
      obtain rfl : t = .runnable .running r := hcause
      cases r with
      | readCompleted b n content => cases ht
      | _ => exact ⟨List.append_nil _, List.append_nil _⟩
    | pushed chunk =>
      obtain ⟨b, rfl⟩ := hcause
      cases ht
    | _ => exact ⟨List.append_nil _, List.append_nil _⟩

/-- A thread that is there after a success has no right to read. -/
theorem SuccessInv.token (hi : SuccessInv ⟨s, t ::ₘ rest⟩) (hs : s.native.succeeded = true) :
    t.token = 0 := by
  have hzero : (!s.native.responded).toNat + s.native.reading.isSome.toNat +
    total Thread.token (t ::ₘ rest) = 0 := (hi.spent hs).1
  rw [total_cons] at hzero
  omega

theorem successInv_step (hb : BodyInv c) (hi : SuccessInv c)
    (hs : Step (step cfg) ReadContract c c') : SuccessInv c' := by
  obtain ⟨⟨⟨hresponse, hread⟩, hsucceeds⟩, hn⟩ := hs
  rename_i s s' t ts rest ch
  have hmem : t ∈ t ::ₘ rest := Multiset.mem_cons_self t rest
  rcases step_succeeds hn with ⟨heq, hfrom⟩ | ⟨rfl, rfl, rfl, rfl⟩
  · refine ⟨?_, ?_, ?_⟩
    · intro hsucceeded
      have hbefore : s.native.succeeded = true := heq.symm.trans hsucceeded
      obtain ⟨hspent, horder⟩ := hi.spent hbefore
      obtain ⟨hreads, hchunks⟩ := order_kept hn (hi.token hbefore)
      refine ⟨?_, ?_⟩
      · exact Nat.le_zero.mp (budget_step hspent.le (step_budget hn hresponse hread).token)
      · exact hreads.trans (horder.trans hchunks.symm)
    · intro u hu hsuccess
      refine heq.trans ?_
      rcases Multiset.mem_add.mp hu with hu | hu
      · exact hi.submitted t hmem (hfrom u (Multiset.mem_coe.mp hu) hsuccess)
      · exact hi.submitted u (Multiset.mem_cons_of_mem hu) hsuccess
    · intro hbegun
      refine heq.trans ?_
      rcases step_event hn with hkept | ⟨e, happ, hcause⟩
      · exact hi.begun (hkept ▸ hbegun)
      · rw [happ, List.mem_append, List.mem_singleton] at hbegun
        rcases hbegun with hbegun | rfl
        · exact hi.begun hbegun
        · obtain rfl : t = .runnable .running .succeeded := hcause
          exact hi.submitted _ hmem rfl
  · -- a success answers the last `Read`, so every chunk was sent
    have hreading : s.native.reading.isSome = true := hsucceeds rfl
    have htoken : (!s.native.responded).toNat + s.native.reading.isSome.toNat +
      total Thread.token (.outside .cronet ::ₘ rest) ≤ 1 := hb.token
    refine ⟨fun _ => ⟨?_, hb.ordered.owing (.inr hreading)⟩, fun _ _ _ => rfl, fun _ => rfl⟩
    rw [hreading, total_cons] at htoken
    rw [total_add, total_coe]
    simp only [Bool.toNat_true, Native.submit, Option.isSome_none, Bool.toNat_false,
      List.map_cons, List.map_nil, List.sum_cons, List.sum_nil, Thread.token,
      Runnable.token] at htoken ⊢
    omega

theorem successInv_reachable (h : Reachable (step cfg) ReadContract start.config c) :
    SuccessInv c := by
  induction h with
  | refl => exact successInv_init
  | tail hr hs ih =>
    have hreads : Reachable (step cfg) AnswersReads start.config _ :=
      Reachable.mono (fun _ _ _ ha => ha.1) hr
    exact successInv_step (bodyInv_reachable hreads) ih hs

/-! ## What becomes of the error -/

/-- The first terminal callback and its task, while the body is still to be told. -/
def Thread.tellsBody : Thread → Bool
  | .terminal (.headers (some _)) | .terminal (.spawn _) | .task (.sendError _) => true
  | _ => false

/-- The first terminal callback looks for an error, and puts what it finds into the body. -/
structure FateInv (c : Config Shared Thread) : Prop where
  /-- It has looked, or is on its way to it. -/
  taken : c.shared.context.state.terminal = true →
    (∃ fallback error, .consumed fallback error ∈ c.shared.trace) ∨
    ∃ t ∈ c.threads, t.toConsume = 1
  /-- What it has found comes to the body, if anyone reads it. -/
  told : ∀ fallback e, .consumed fallback (some e) ∈ c.shared.trace →
    c.shared.body.receiver = false ∨ (∃ e', .bodyError e' ∈ c.shared.trace) ∨
    ∃ t ∈ c.threads, t.tellsBody = true

theorem fateInv_init : FateInv start.config where
  taken := by simp [start, Listed.config]
  told := by simp [start, Listed.config]

/-- Who is to look for the error does so. -/
theorem consume_step (h : step cfg s t ch = some (s', ts)) (ht : t.toConsume = 1) :
    (∃ fallback error, .consumed fallback error ∈ s'.trace) ∨ ∃ u ∈ ts, u.toConsume = 1 := by
  cases t with
  | terminal p =>
    cases p with
    | done fallback =>
      cases ch <;> cases h
      exact .inr ⟨_, List.mem_singleton_self _, rfl⟩
    | take fallback =>
      cases ch <;> cases h
      exact .inl ⟨_, _, List.mem_append_right _ (List.mem_singleton_self _)⟩
    | _ => cases ht
  | _ => cases ht

/-- `terminal` is called and is the first. -/
theorem first_step {fallback : Option Error}
    (h : step cfg s (.terminal (.first fallback)) ch = some (s', ts))
    (hnew : s.context.state.terminal = false) : ∃ u ∈ ts, u.toConsume = 1 := by
  cases ch with
  | go =>
    rw [step, terminalStep, hnew] at h
    cases h
    exact ⟨_, List.mem_singleton_self _, rfl⟩
  | _ => cases h

/-- Who is to tell the body does so, unless nobody reads it. -/
theorem tell_step (h : step cfg s t ch = some (s', ts)) (ht : t.tellsBody = true) :
    s.body.receiver = false ∨ (∃ e, .bodyError e ∈ s'.trace) ∨ ∃ u ∈ ts, u.tellsBody = true := by
  cases t with
  | terminal p =>
    cases p with
    | headers error =>
      cases error with
      | none => cases ht
      | some e =>
        cases ch with
        | go =>
          rw [step, terminalStep] at h
          split_ifs at h
          all_goals
            cases h
            exact .inr (.inr ⟨_, List.mem_singleton_self _, rfl⟩)
        | _ => cases h
    | spawn e =>
      cases ch <;> cases h
      exact .inr (.inr ⟨_, List.mem_cons_self, rfl⟩)
    | _ => cases ht
  | task p =>
    cases p with
    | sendError e =>
      obtain rfl := sendError_goes h
      rw [step, taskStep] at h
      split_ifs at h with hreceiver hroom
      · cases h
        exact .inr (.inl ⟨e, List.mem_append_right _ (List.mem_singleton_self _)⟩)
      · exact .inl (Bool.eq_false_iff.mpr hreceiver)
    | _ => cases ht
  | _ => cases ht

/-- What is taken from the slot goes on to the header future and the body. -/
theorem take_step {fallback : Option Error} {e : Error}
    (h : step cfg s (.terminal (.take fallback)) ch = some (s', ts))
    (htaken : s.context.requestError.or fallback = some e) : ∃ u ∈ ts, u.tellsBody = true := by
  cases ch with
  | go =>
    rw [step, terminalStep, htaken] at h
    cases h
    exact ⟨_, List.mem_singleton_self _, rfl⟩
  | _ => cases h

/-! ## Runs -/

theorem fateInv_step (hi : FateInv c) (hs : Step (step cfg) AnswersReads c c') : FateInv c' := by
  obtain ⟨⟨hresponse, hread⟩, hn⟩ := hs
  rename_i s s' t ts rest ch
  have hcarries := step_carries hn (fun b n content => hread b n content) hresponse
  have htrace := (step_frame hn).trace.subset
  have hkept : s.body.receiver = false → s'.body.receiver = false := by
    intro hclosed
    by_contra hopen
    rw [step_receiver hn (by simpa using hopen)] at hclosed
    cases hclosed
  have hnew : ∀ u ∈ ts, u ∈ (ts : Multiset Thread) + rest := fun u hu =>
    Multiset.mem_add.mpr (.inl (Multiset.mem_coe.mpr hu))
  have hold : ∀ u ∈ rest, u ∈ (ts : Multiset Thread) + rest := fun u hu =>
    Multiset.mem_add.mpr (.inr hu)
  refine ⟨?_, ?_⟩
  · intro hterminal
    by_cases hbefore : s.context.state.terminal = true
    · rcases hi.taken hbefore with ⟨fallback, error, hconsumed⟩ | ⟨u, hu, hconsume⟩
      · exact .inl ⟨fallback, error, htrace hconsumed⟩
      rcases Multiset.mem_cons.mp hu with rfl | hu
      · rcases consume_step hn hconsume with hconsumed | ⟨v, hv, hvconsume⟩
        · exact .inl hconsumed
        · exact .inr ⟨v, hnew v hv, hvconsume⟩
      · exact .inr ⟨u, hold u hu, hconsume⟩
    · rcases hcarries.terminal hterminal with hbefore' | ⟨fallback, ht⟩
      · exact absurd hbefore' hbefore
      · subst ht
        obtain ⟨v, hv, hconsume⟩ := first_step hn (Bool.eq_false_iff.mpr hbefore)
        exact .inr ⟨v, hnew v hv, hconsume⟩
  · intro fallback e hconsumed
    have hbefore : .consumed fallback (some e) ∈ s.trace →
        s'.body.receiver = false ∨ (∃ e', .bodyError e' ∈ s'.trace) ∨
        ∃ u ∈ (ts : Multiset Thread) + rest, u.tellsBody = true := by
      intro hconsumed
      rcases hi.told fallback e hconsumed with hclosed | ⟨e', herror⟩ | ⟨u, hu, htells⟩
      · exact .inl (hkept hclosed)
      · exact .inr (.inl ⟨e', htrace herror⟩)
      rcases Multiset.mem_cons.mp hu with rfl | hu
      · rcases tell_step hn htells with hclosed | herror | ⟨v, hv, hvtells⟩
        · exact .inl (hkept hclosed)
        · exact .inr (.inl herror)
        · exact .inr (.inr ⟨v, hnew v hv, hvtells⟩)
      · exact .inr (.inr ⟨u, hold u hu, htells⟩)
    rcases step_event hn with heq | ⟨event, heq, hcause⟩
    · rw [heq] at hconsumed
      exact hbefore hconsumed
    · rw [heq, List.mem_append, List.mem_singleton] at hconsumed
      rcases hconsumed with hconsumed | rfl
      · exact hbefore hconsumed
      · obtain ⟨rfl, htaken⟩ := hcause
        obtain ⟨v, hv, htells⟩ := take_step hn htaken.symm
        exact .inr (.inr ⟨v, hnew v hv, htells⟩)

theorem fateInv_reachable (h : Reachable (step cfg) AnswersReads start.config c) : FateInv c := by
  induction h with
  | refl => exact fateInv_init
  | tail _ hs ih => exact fateInv_step ih hs

/-- The request has succeeded, and the body is all that was read. -/
def Done (s : Shared) (body : Bytes) : Prop :=
  .consumed none none ∈ s.trace ∧ body = (reads s.trace).flatten

/-- The consumer returns a body only when it is complete. -/
structure ConsumerInv (c : Config Shared Thread) : Prop where
  /-- There is one consumer. -/
  one : total Thread.consumes c.threads ≤ 1
  /-- It has taken what is not in the channel any more. -/
  fed : ∀ t ∈ c.threads, ∀ acc, t.taken = some acc → Fed c.shared acc
  /-- While it waits, the cleanup task waits for the terminal callback, or has seen it. -/
  awaited : ∀ t ∈ c.threads, t.waits = true →
    c.shared.context.terminalSignal = true ∨ .cleanup .terminal ∈ c.threads
  /-- What it returns is complete. -/
  answer : ∀ t ∈ c.threads, ∀ body, t.answer = some body → Done c.shared body

theorem consumerInv_init : ConsumerInv start.config where
  one := by simp [start, Listed.config, Thread.consumes]
  fed := by
    simp only [start, Listed.config, Multiset.mem_coe, List.mem_cons, List.not_mem_nil, or_false]
    rintro t (rfl | rfl | rfl) acc htaken <;> cases htaken
    exact ⟨rfl, [], rfl, rfl⟩
  awaited := by simp [start, Listed.config, Thread.waits]
  answer := by simp [start, Listed.config, Thread.answer]

theorem chunks_items (tr : List Event) :
    chunks tr = (items tr).filterMap fun
      | .ok chunk => some chunk
      | .error _ => none := by
  rw [chunks, items, List.filterMap_filterMap]
  refine List.filterMap_congr fun e _ => ?_
  cases e <;> rfl

theorem chunks_of_items {tr : List Event} {popped : List Bytes}
    (h : items tr = popped.map .ok) : chunks tr = popped := by
  rw [chunks_items, h, List.filterMap_map]
  exact List.filterMap_some

theorem toConsume_ending (h : t.toConsume = 1) : t.ending = 1 := by
  cases t with
  | terminal p => cases p <;> first | rfl | cases h
  | _ => cases h

theorem tellsBody_cases (h : t.tellsBody = true) : t.ending = 1 ∨ t.sender = 1 := by
  cases t with
  | terminal p => cases p <;> first | exact .inl rfl | cases h
  | task p => cases p <;> first | exact .inr rfl | cases h
  | _ => cases h

/-- While the context is there the cleanup task is, so without it the terminal callback is
over. -/
theorem finished_of_unheld (hcontext : ContextInv c) (hending : EndingInv c)
    (hconsumer : ConsumerInv c) (ht : t ∈ c.threads) (hwaits : t.waits = true)
    (hdead : c.shared.context.life ≠ .live) : TerminalFinished c := by
  have hsignal : c.shared.context.terminalSignal = true := by
    rcases hconsumer.awaited t ht hwaits with hsignal | hcleanup
    · exact hsignal
    · exact absurd (hcontext.held _ hcleanup (Nat.le_refl 2)) hdead
  have hbalance := hending.balance
  have hle := Bool.toNat_le c.shared.context.state.terminal
  rw [hsignal, Bool.toNat_true] at hbalance
  refine ⟨Bool.toNat_eq_one.mp (by omega), total_eq_zero.mp (by omega)⟩

/-- The terminal callback has looked for an error. -/
theorem FateInv.consumed (hi : FateInv c) (hfinished : TerminalFinished c) :
    ∃ fallback error, .consumed fallback error ∈ c.shared.trace := by
  rcases hi.taken hfinished.1 with hconsumed | ⟨t, ht, hconsume⟩
  · exact hconsumed
  · have hnone := hfinished.2 t ht
    rw [toConsume_ending hconsume] at hnone
    cases hnone

/-- When nothing is on its way to the body, it was told. -/
theorem FateInv.tells {fallback : Option Error} {e : Error} (hi : FateInv c)
    (hfinished : TerminalFinished c) (hunsent : ∀ t ∈ c.threads, t.sender = 0)
    (hopen : c.shared.body.receiver = true)
    (h : .consumed fallback (some e) ∈ c.shared.trace) : ∃ e', .bodyError e' ∈ c.shared.trace := by
  rcases hi.told fallback e h with hclosed | herror | ⟨t, ht, htells⟩
  · rw [hopen] at hclosed
    cases hclosed
  · exact herror
  · have hending := hfinished.2 t ht
    have hsender := hunsent t ht
    rcases tellsBody_cases htells with hone | hone
    · rw [hone] at hending
      cases hending
    · rw [hone] at hsender
      cases hsender

/-- `terminal` found no error, so it was called by `on_succeeded` and none was recorded. -/
theorem ReportInv.succeeded {fallback : Option Error} (hi : ReportInv c)
    (h : .consumed fallback none ∈ c.shared.trace) :
    ∃ before after, c.shared.trace = before ++ .consumed none none :: after ∧
      .callbackBegun .succeeded ∈ before ∧ firstRecorded before = none := by
  obtain ⟨l, r, heq⟩ := List.append_of_mem h
  obtain ⟨hfirst, runnable, hbegun, hfallback⟩ := hi.told.consumed l _ r heq fallback none rfl
  obtain ⟨hnone, rfl⟩ := Option.or_eq_none_iff.mp hfirst.symm
  refine ⟨l, r, heq, ?_, hnone⟩
  cases runnable <;> cases hfallback
  exact hbegun

/-- `terminal` finds no error after a success only. -/
theorem SuccessInv.succeeded {fallback : Option Error} (hi : SuccessInv c) (hreport : ReportInv c)
    (h : .consumed fallback none ∈ c.shared.trace) : c.shared.native.succeeded = true := by
  obtain ⟨before, after, heq, hbegun, -⟩ := hreport.succeeded h
  refine hi.begun ?_
  rw [heq]
  exact List.mem_append_left _ hbegun

/-- **The body is over only after a success.** Without a sender there is neither a context nor
a task on its way to the channel, so the terminal callback is over and had no error to tell. -/
theorem done_of_ended {info : ResponseInfo} {acc : Bytes} (hcontext : ContextInv c)
    (hending : EndingInv c) (hreport : ReportInv c) (hsuccess : SuccessInv c) (hfate : FateInv c)
    (hconsumer : ConsumerInv c) (hmem : .execute (.body info acc) ∈ c.threads)
    (hqueue : c.shared.body.queue = []) (hsenders : c.shared.body.senders = 0) :
    Done c.shared acc := by
  obtain ⟨hdead, hunsent⟩ := hcontext.unsent hsenders
  obtain ⟨hopen, popped, hacc, hitems⟩ := hconsumer.fed _ hmem acc rfl
  rw [hqueue, List.append_nil] at hitems
  have hfinished := finished_of_unheld hcontext hending hconsumer hmem rfl hdead
  obtain ⟨fallback, error, hconsumed⟩ := hfate.consumed hfinished
  -- an error would have come through the channel
  have hnone : error = none := by
    cases error with
    | none => rfl
    | some e =>
      obtain ⟨e', herror⟩ := hfate.tells hfinished hunsent hopen hconsumed
      have hitem : (.error e' : Result Bytes) ∈ items c.shared.trace :=
        List.mem_filterMap.mpr ⟨_, herror, rfl⟩
      rw [hitems] at hitem
      obtain ⟨chunk, -, heq⟩ := List.mem_map.mp hitem
      cases heq
  subst hnone
  obtain ⟨before, after, heq, -, -⟩ := hreport.succeeded hconsumed
  refine ⟨?_, ?_⟩
  · rw [heq]
    exact List.mem_append_right _ List.mem_cons_self
  · have hsucceeded := hsuccess.succeeded hreport hconsumed
    rw [(hsuccess.spent hsucceeded).2, chunks_of_items hitems, hacc]

theorem consumerInv_step (hcontext : ContextInv c) (hending : EndingInv c) (hreport : ReportInv c)
    (hsuccess : SuccessInv c) (hfate : FateInv c) (hi : ConsumerInv c)
    (hs : Step (step cfg) ReadContract c c') : ConsumerInv c' := by
  obtain ⟨-, hn⟩ := hs
  rename_i s s' t ts rest ch
  have hmem : t ∈ t ::ₘ rest := Multiset.mem_cons_self t rest
  have htaking := step_taking hn
  have htrace := (step_frame hn).trace.subset
  have hdone : ∀ body, Done s body → Done s' body := by
    rintro body ⟨hconsumed, hbody⟩
    have hsucceeded : s.native.succeeded = true := hsuccess.succeeded hreport hconsumed
    refine ⟨htrace hconsumed, ?_⟩
    rw [(order_kept hn (hsuccess.token hsucceeded)).1]
    exact hbody
  refine ⟨passed_step hi.one htaking.one, ?_, ?_, ?_⟩
  · intro u hu acc htaken
    rcases Multiset.mem_add.mp hu with hu | hu
    · obtain ⟨acc', hbefore, hfed⟩ := htaking.fed u (Multiset.mem_coe.mp hu) acc htaken
      exact hfed (hi.fed t hmem acc' hbefore)
    · -- another thread is the consumer, so this one only adds to the channel
      have hadd : t.consumes + u.consumes ≤ total Thread.consumes (t ::ₘ rest) := add_le_total hu
      have hone : total Thread.consumes (t ::ₘ rest) ≤ 1 := hi.one
      have hu1 := taken_consumes htaken
      obtain ⟨hreceiver, l, hitems, hqueue⟩ := htaking.stream (by omega)
      exact (hi.fed u (Multiset.mem_cons_of_mem hu) acc htaken).grows hreceiver hitems hqueue
  · intro u hu hwaits
    have hbefore : ∀ v ∈ t ::ₘ rest, v.waits = true → s'.context.terminalSignal = true ∨
        .cleanup .terminal ∈ (ts : Multiset Thread) + rest := by
      intro v hv hvwaits
      rcases hi.awaited v hv hvwaits with hsignal | hcleanup
      · exact .inl (htaking.signal hsignal)
      rcases Multiset.mem_cons.mp hcleanup with rfl | hcleanup
      · refine .inl ?_
        cases ch with
        | go =>
          rw [step, cleanupStep] at hn
          split_ifs at hn with hsignal
          cases hn
          exact hsignal
        | _ => cases hn
      · exact .inr (Multiset.mem_add.mpr (.inr hcleanup))
    rcases Multiset.mem_add.mp hu with hu | hu
    · rcases htaking.waits u (Multiset.mem_coe.mp hu) hwaits with ht | hcleanup
      · exact hbefore t hmem ht
      · exact .inr (Multiset.mem_add.mpr (.inl (Multiset.mem_coe.mpr hcleanup)))
    · exact hbefore u (Multiset.mem_cons_of_mem hu) hwaits
  · intro u hu body hanswer
    rcases Multiset.mem_add.mp hu with hu | hu
    · refine hdone body ?_
      rcases htaking.answer u (Multiset.mem_coe.mp hu) body hanswer with
        ht | ⟨⟨info, rfl⟩, hqueue, hsenders⟩
      · exact hi.answer t hmem body ht
      · exact done_of_ended hcontext hending hreport hsuccess hfate hi hmem hqueue hsenders
    · exact hdone body (hi.answer u (Multiset.mem_cons_of_mem hu) body hanswer)

theorem consumerInv_reachable (h : Reachable (step cfg) ReadContract start.config c) :
    ConsumerInv c := by
  induction h with
  | refl => exact consumerInv_init
  | tail hr hs ih =>
    have hreads : Reachable (step cfg) AnswersReads start.config _ :=
      Reachable.mono (fun _ _ _ ha => ha.1) hr
    exact consumerInv_step (contextInv_reachable hr) (endingInv_reachable hr)
      (reportInv_reachable hr) (successInv_reachable hr) (fateInv_reachable hreads) ih hs

theorem not_recorded {tr : List Event} (h : firstRecorded tr = none) (e : Error) :
    .recorded e ∉ tr := by
  intro hmem
  rw [firstRecorded, List.findSome?_eq_none_iff] at h
  cases h _ hmem

/-- **A response that is returned is whole.** Whatever the order of the tasks, and whoever
cancels: if `execute_request` returns a response, then the request ended in `on_succeeded`, no
error had been recorded when `terminal` looked, and the body is what the completions brought,
in read order. -/
theorem response_whole (h : Reachable (step cfg) ReadContract start.config c)
    {info : ResponseInfo} {body : Bytes} {finished : FinishedInfo}
    (hreturned : .execute (.returned (.ok (info, body, finished))) ∈ c.threads) :
    Whole c.shared.trace body := by
  obtain ⟨hconsumed, hbody⟩ := (consumerInv_reachable h).answer _ hreturned body rfl
  have hreport := reportInv_reachable h
  obtain ⟨before, after, heq, hbegun, hfirst⟩ := hreport.succeeded hconsumed
  have hbegun' : .callbackBegun .succeeded ∈ c.shared.trace := by
    rw [heq]
    exact List.mem_append_left _ hbegun
  refine ⟨⟨before, after, heq, hbegun, not_recorded hfirst⟩, ?_, ?_, hbody⟩
  · have hpos : 0 < c.shared.trace.countP Event.isConsumed :=
      List.countP_pos_iff.mpr ⟨_, hconsumed, rfl⟩
    have hone := hreport.consumed
    omega
  · intro honly r hr hfallback
    exact honly r .succeeded hr hbegun' hfallback rfl

/-- A completion, until its chunk is in the channel and the next `Read` is accepted. -/
def delivers (chunk : Bytes) : Schedule :=
  enters (.readCompleted 0 chunk.length (some chunk)) ++
  [(.runnable .entered (.readCompleted 0 chunk.length (some chunk)), go 4),
    (.callback .leave, go 3), (.task (.send 0 chunk), go 5 ++ [.result none] ++ go 4)]

/-- The succeeded and the finished callback, and the cleanup, up to the last `Arc`. -/
def endsSucceeded : Schedule :=
  enters .succeeded ++ [(.runnable .entered .succeeded, go 9)] ++
  enters (.finished 0) ++ [(.runnable .entered (.finished 0), go 5)] ++
  [(.task .releaseArc, go 1), (.cleanup .terminal, go 11)]

/-- Two chunks are read, the request succeeds, and its body is collected. -/
def returnsWhole : Schedule :=
  readsFirst ++ [(.read (.returned .callback 0 none), go 4)] ++ delivers [7] ++ delivers [8, 9] ++
  endsSucceeded ++ [(.execute .headers, go 7)]

theorem response_whole_two :
    Whole (Pool.play (step {}) readContract start returnsWhole).config.shared.trace [7, 8, 9] := by
  have hreturned : .execute (.returned (.ok (okInfo, [7, 8, 9], 0))) ∈
      (Pool.play (step {}) readContract start returnsWhole).config.threads := by
    decide +kernel
  exact response_whole (play_reachable readContract_sound returnsWhole Reachable.start) hreturned

end TokioCronet.Request
