import TokioCronet.Request.Body

/-!
# The consumer of a body

`execute` has one caller, from `start_request` to the return, and it alone takes anything out
of the body channel. So what it has taken, with what is still in the channel, is what was put
there; and a body that it is about to return was complete when the channel had no sender left.
-/

namespace TokioCronet.Request

open Pool

variable {cfg : Settings} {s s' : Shared} {t u : Thread} {ch : Choice} {ts : List Thread}

/-! ## Where it stands -/

/-- The body of a response. -/
def bodyOf : Option (Result Response) → Option Bytes
  | some (.ok (_, body, _)) => some body
  | _ => none

/-- Who cancels on behalf of the caller of `execute`. -/
def Canceler.consumes : Canceler → Nat
  | .registering | .started | .consumer _ => 1
  | _ => 0

/-- `start_request` cancels what it has not handed out yet. -/
def Canceler.taken : Canceler → Option Bytes
  | .registering | .started => some []
  | _ => none

/-- The body of the response that the consumer is about to return. -/
def Canceler.answer : Canceler → Option Bytes
  | .consumer result => bodyOf result
  | _ => none

/-- Who cancels, if the operation is a cancellation. -/
def GatedOp.canceler : GatedOp → Option Canceler
  | .cancel who => some who
  | _ => none

/-- Who a call of `cancel` is made for. -/
def Control.canceler : Control → Option Canceler
  | .store who => some who
  | .lock op | .raw op | .done op | .call op | .unlock op _ => op.canceler
  | .statusLoad => none

/-- The caller of `execute`, from `start_request` to the return. -/
def Thread.consumes : Thread → Nat
  | .start (.returned _) | .execute (.returned _) => 0
  | .start _ | .execute _ => 1
  | .control p => (p.canceler.map Canceler.consumes).getD 0
  | _ => 0

/-- What it has taken out of the channel. -/
def Thread.taken : Thread → Option Bytes
  | .start (.returned _) => none
  | .start _ | .execute .headers => some []
  | .execute (.body _ acc) => some acc
  | .control p => p.canceler.bind Canceler.taken
  | _ => none

/-- The body that it has found complete. -/
def Thread.answer : Thread → Option Bytes
  | .execute (.finished _ acc) => some acc
  | .execute (.drop result) | .execute (.closeBody result) => bodyOf result
  | .execute (.returned result) => bodyOf (some result)
  | .control p => p.canceler.bind Canceler.answer
  | _ => none

/-- It waits for the headers or the body. -/
def Thread.waits : Thread → Bool
  | .execute .headers | .execute (.body _ _) => true
  | _ => false

theorem taken_consumes {acc : Bytes} (h : t.taken = some acc) : t.consumes = 1 := by
  cases t with
  | start p => cases p <;> first | rfl | cases h
  | execute p => cases p <;> first | rfl | cases h
  | control p =>
    obtain ⟨who, hwho, htaken⟩ := Option.bind_eq_some_iff.mp h
    rw [Thread.consumes, hwho]
    cases who <;> first | rfl | cases htaken
  | _ => cases h

/-- What went through the channel is what was taken out and what is still there. -/
def Fed (s : Shared) (acc : Bytes) : Prop :=
  s.body.receiver = true ∧
  ∃ popped : List Bytes, acc = popped.flatten ∧ items s.trace = popped.map .ok ++ s.body.queue

theorem Fed.grows {acc : Bytes} {l : List (Result Bytes)} (h : Fed s acc)
    (hreceiver : s'.body.receiver = s.body.receiver) (hitems : items s'.trace = items s.trace ++ l)
    (hqueue : s'.body.queue = s.body.queue ++ l) : Fed s' acc := by
  obtain ⟨hopen, popped, hacc, hpopped⟩ := h
  refine ⟨hreceiver.trans hopen, popped, hacc, ?_⟩
  rw [hitems, hpopped, hqueue, List.append_assoc]

/-- The consumer takes a chunk. -/
theorem Fed.pops {acc chunk : Bytes} {queue : List (Result Bytes)} (h : Fed s acc)
    (hqueue : s.body.queue = .ok chunk :: queue) :
    Fed { s with body.queue := queue } (acc ++ chunk) := by
  obtain ⟨hopen, popped, hacc, hpopped⟩ := h
  refine ⟨hopen, popped ++ [chunk], ?_, ?_⟩
  · rw [List.flatten_append, List.flatten_singleton, hacc]
  · rw [hqueue] at hpopped
    rw [List.map_append, List.append_assoc]
    exact hpopped

/-- The channel has no sender left. -/
def Ended (s : Shared) (t : Thread) (body : Bytes) : Prop :=
  (∃ info, t = .execute (.body info body)) ∧ s.body.queue = [] ∧ s.body.senders = 0

/-! ## One step -/

/-- What a step does with the body, and for whom. -/
structure Taking (s : Shared) (t : Thread) (s' : Shared) (ts : List Thread) : Prop where
  /-- There is one consumer. -/
  one : (ts.map Thread.consumes).sum ≤ t.consumes
  /-- The others only put something into the channel. -/
  stream : t.consumes = 0 → s'.body.receiver = s.body.receiver ∧
    ∃ l, items s'.trace = items s.trace ++ l ∧ s'.body.queue = s.body.queue ++ l
  /-- The consumer takes what is in the channel. -/
  fed : ∀ u ∈ ts, ∀ acc', u.taken = some acc' →
    ∃ acc, t.taken = some acc ∧ (Fed s acc → Fed s' acc')
  /-- It has a body once the channel has no sender left. -/
  answer : ∀ u ∈ ts, ∀ body, u.answer = some body →
    t.answer = some body ∨ Ended s t body
  /-- When it begins to wait, the cleanup task is there. -/
  waits : ∀ u ∈ ts, u.waits = true → t.waits = true ∨ .cleanup .terminal ∈ ts
  /-- The terminal signal is not taken back. -/
  signal : s.context.terminalSignal = true → s'.context.terminalSignal = true

theorem items_other {tr : List Event} {e : Event} (h : e.item = none) :
    items (tr ++ [e]) = items tr := by
  rw [items_snoc, h]
  exact List.append_nil _

/-- What a thread leaves to the one that takes its place. -/
structure Follows (t u : Thread) : Prop where
  /-- It has taken the same. -/
  taken : ∀ acc, u.taken = some acc → t.taken = some acc
  /-- It is about to return the same. -/
  answer : ∀ body, u.answer = some body → t.answer = some body
  /-- It waits as before. -/
  waits : u.waits = true → t.waits = true

/-- The thread has nothing to do with the consumer. -/
def Thread.bystander (t : Thread) : Bool :=
  t.taken.isNone && t.answer.isNone && !t.waits

theorem Follows.of_bystander (h : u.bystander = true) : Follows t u := by
  rw [Thread.bystander, Bool.and_eq_true, Bool.and_eq_true, Option.isNone_iff_eq_none,
    Option.isNone_iff_eq_none, Bool.not_eq_true'] at h
  obtain ⟨⟨htaken, hanswer⟩, hwaits⟩ := h
  constructor
  · intro acc h
    rw [htaken] at h
    cases h
  · intro body h
    rw [hanswer] at h
    cases h
  · intro h
    rw [hwaits] at h
    cases h

theorem bystanders (h : (ts.all fun u => u.bystander) = true) : ∀ u ∈ ts, Follows t u :=
  fun u hu => .of_bystander (List.all_eq_true.mp h u hu)

/-- The body is left alone, and the consumer stays what it was. -/
theorem Taking.still (hreceiver : s'.body.receiver = s.body.receiver)
    (hqueue : s'.body.queue = s.body.queue) (hitems : items s'.trace = items s.trace)
    (hsignal : s.context.terminalSignal = true → s'.context.terminalSignal = true)
    (hone : (ts.map Thread.consumes).sum ≤ t.consumes) (hts : ∀ u ∈ ts, Follows t u) :
    Taking s t s' ts where
  one := hone
  stream := fun _ => ⟨hreceiver, [], hitems.trans (List.append_nil _).symm,
    hqueue.trans (List.append_nil _).symm⟩
  fed := by
    intro u hu acc htaken
    refine ⟨acc, (hts u hu).taken acc htaken, fun h => ?_⟩
    exact h.grows hreceiver (hitems.trans (List.append_nil _).symm)
      (hqueue.trans (List.append_nil _).symm)
  answer := fun u hu body h => .inl ((hts u hu).answer body h)
  waits := fun u hu h => .inl ((hts u hu).waits h)
  signal := hsignal

/-- Something is put into the channel. -/
theorem Taking.pushes {item : Result Bytes} (hreceiver : s'.body.receiver = s.body.receiver)
    (hqueue : s'.body.queue = s.body.queue ++ [item])
    (hitems : items s'.trace = items s.trace ++ [item])
    (hsignal : s.context.terminalSignal = true → s'.context.terminalSignal = true)
    (hone : (ts.map Thread.consumes).sum = 0) (hts : (ts.all fun u => u.bystander) = true) :
    Taking s t s' ts where
  one := hone.le.trans (Nat.zero_le _)
  stream := fun _ => ⟨hreceiver, _, hitems, hqueue⟩
  fed := by
    intro u hu acc htaken
    have hfollows : Follows (.task .releaseArc) u := bystanders hts u hu
    cases hfollows.taken acc htaken
  answer := by
    intro u hu body hanswer
    have hfollows : Follows (.task .releaseArc) u := bystanders hts u hu
    cases hfollows.answer body hanswer
  waits := by
    intro u hu hwaits
    have hfollows : Follows (.task .releaseArc) u := bystanders hts u hu
    cases hfollows.waits hwaits
  signal := hsignal

/-- The consumer empties the channel and takes nothing more. -/
theorem Taking.popped (hconsumes : t.consumes ≠ 0)
    (hone : (ts.map Thread.consumes).sum ≤ t.consumes) (hts : ∀ u ∈ ts, Follows t u)
    (hnone : ∀ u ∈ ts, u.taken = none)
    (hsignal : s'.context.terminalSignal = s.context.terminalSignal) : Taking s t s' ts where
  one := hone
  stream := fun h => absurd h hconsumes
  fed := by
    intro u hu acc htaken
    rw [hnone u hu] at htaken
    cases htaken
  answer := fun u hu body h => .inl ((hts u hu).answer body h)
  waits := fun u hu h => .inl ((hts u hu).waits h)
  signal := fun h => hsignal.trans h

theorem after_consumes (op : GatedOp) (e : Option Error) :
    ((op.after e).map Thread.consumes).sum ≤ (op.canceler.map Canceler.consumes).getD 0 := by
  fun_cases GatedOp.after op e <;> first | exact Nat.le_refl _ | exact Nat.zero_le _

theorem after_follows (op : GatedOp) (e : Option Error) :
    ∀ u ∈ op.after e, Follows (.control (.unlock op e)) u := by
  fun_cases GatedOp.after op e <;>
    first
      | exact bystanders rfl
      | exact List.forall_mem_singleton.mpr ⟨fun _ h => h, fun _ h => h, fun h => h⟩

theorem leave_bystander (site : Site) : (site.leave.all fun u => u.bystander) = true := by
  cases site <;> rfl

theorem leave_consumes (site : Site) : (site.leave.map Thread.consumes).sum = 0 := by
  cases site <;> rfl

theorem callback_bystander (r : Runnable) : r.callback.bystander = true := by
  cases r <;> rfl

theorem callback_consumes (r : Runnable) : r.callback.consumes = 0 := by
  cases r <;> rfl

theorem startStep_taking {p : Start} (h : startStep s p ch = some (s', ts)) :
    Taking s (.start p) s' ts := by
  revert h
  fun_cases startStep s p ch <;> first | exact of_none | apply of_some
  all_goals first
    | exact .still rfl rfl rfl id (Nat.le_refl _) (bystanders rfl)
    | exact .still rfl rfl rfl id (Nat.zero_le _) (bystanders rfl)
    | exact .still rfl rfl (items_other rfl) id (Nat.zero_le _) (bystanders rfl)
    | exact .still rfl rfl rfl id (Nat.le_refl _)
        (List.forall_mem_singleton.mpr
          ⟨fun _ h => h, fun _ h => (by cases h), fun h => (by cases h)⟩)
    | exact .still rfl rfl (items_other rfl) id (Nat.le_refl _)
        (List.forall_mem_singleton.mpr
          ⟨fun _ h => h, fun _ h => (by cases h), fun h => (by cases h)⟩)
    | skip
  -- the future is handed out together with the cleanup task
  case case22 =>
    refine ⟨Nat.le_refl _, fun h => absurd h Nat.one_ne_zero, ?_, ?_,
      fun _ _ _ => .inr List.mem_cons_self, id⟩
    · simp only [List.mem_cons, List.not_mem_nil, or_false]
      rintro u (rfl | rfl | rfl | rfl) acc htaken <;> cases htaken
      exact ⟨[], rfl, fun h => h⟩
    · simp only [List.mem_cons, List.not_mem_nil, or_false]
      rintro u (rfl | rfl | rfl | rfl) body hanswer <;> cases hanswer

theorem controlStep_taking {p : Control} (h : controlStep s p ch = some (s', ts)) :
    Taking s (.control p) s' ts := by
  revert h
  fun_cases controlStep s p ch <;> first | exact of_none | apply of_some
  all_goals first
    | exact .still rfl rfl rfl id (Nat.zero_le _) (bystanders rfl)
    | exact .still rfl rfl rfl id (Nat.le_refl _)
        (List.forall_mem_singleton.mpr ⟨fun _ h => h, fun _ h => h, fun h => h⟩)
    | exact .still rfl rfl (items_other rfl) id (Nat.le_refl _)
        (List.forall_mem_singleton.mpr ⟨fun _ h => h, fun _ h => h, fun h => h⟩)
    | exact .still rfl rfl rfl id (after_consumes _ _) (after_follows _ _)

theorem executeStep_taking {p : Execute} (h : executeStep s p ch = some (s', ts)) :
    Taking s (.execute p) s' ts := by
  revert h
  fun_cases executeStep s p ch <;> first | exact of_none | apply of_some
  all_goals first
    | exact .still rfl rfl rfl id (Nat.le_refl _)
        (List.forall_mem_singleton.mpr ⟨fun _ h => h, fun _ h => h, fun h => h⟩)
    | exact .still rfl rfl rfl id (Nat.le_refl _) (bystanders rfl)
    | skip
  case case5 info acc chunk queue hqueue =>
    refine ⟨Nat.le_refl _, fun h => absurd h Nat.one_ne_zero, ?_, ?_, fun _ _ _ => .inl rfl, id⟩
    · intro u hu acc' htaken
      rw [List.mem_singleton.mp hu] at htaken
      cases htaken
      exact ⟨acc, rfl, fun h => h.pops hqueue⟩
    · intro u hu body hanswer
      rw [List.mem_singleton.mp hu] at hanswer
      cases hanswer
  case case6 =>
    exact .popped Nat.one_ne_zero (Nat.le_refl _) (bystanders rfl)
      (List.forall_mem_singleton.mpr rfl) rfl
  case case7 info acc hqueue hsenders =>
    refine ⟨Nat.le_refl _, fun h => absurd h Nat.one_ne_zero, ?_, ?_, ?_, id⟩
    · intro u hu acc' htaken
      rw [List.mem_singleton.mp hu] at htaken
      cases htaken
    · intro u hu body hanswer
      rw [List.mem_singleton.mp hu] at hanswer
      cases hanswer
      exact .inr ⟨⟨info, rfl⟩, hqueue, hsenders⟩
    · intro u hu hwaits
      rw [List.mem_singleton.mp hu] at hwaits
      cases hwaits
  case case17 =>
    exact .popped Nat.one_ne_zero (Nat.zero_le _)
      (List.forall_mem_singleton.mpr
        ⟨fun _ h => (by cases h), fun _ h => h, fun h => (by cases h)⟩)
      (List.forall_mem_singleton.mpr rfl) rfl
  case case18 =>
    exact .popped Nat.one_ne_zero (Nat.zero_le _) (bystanders rfl)
      (List.forall_mem_nil _) rfl

/-- **Only the consumer takes from the body.** -/
theorem step_taking (h : step cfg s t ch = some (s', ts)) : Taking s t s' ts := by
  revert h
  cases t <;> simp only [step]
  case outside who =>
    fun_cases outsideStep s who ch <;> first | exact of_none | apply of_some
    all_goals first
      | exact .still rfl rfl rfl id (Nat.le_refl _) (bystanders rfl)
      | exact .still rfl rfl (items_other rfl) id (Nat.le_refl _) (bystanders rfl)
  case start p => exact startStep_taking
  case shutdown p =>
    fun_cases shutdownStep s p ch <;> first | exact of_none | apply of_some
    all_goals exact .still rfl rfl rfl id (Nat.le_refl _) (bystanders rfl)
  case control p => exact controlStep_taking
  case runnable stage r =>
    fun_cases runnableStep s stage r ch <;> first | exact of_none | apply of_some
    all_goals first
      | exact .still rfl rfl rfl id (Nat.le_refl _) (bystanders rfl)
      | exact .still rfl rfl (items_other rfl) id (Nat.le_refl _) (bystanders rfl)
      | exact .still rfl rfl rfl id (callback_consumes r).le
          (List.forall_mem_singleton.mpr (.of_bystander (callback_bystander r)))
  case callback p =>
    fun_cases callbackStep cfg s p ch <;> first | exact of_none | apply of_some
    all_goals first
      | exact .still rfl rfl rfl id (Nat.le_refl _) (bystanders rfl)
      | exact .still rfl rfl (items_other rfl) id (Nat.le_refl _) (bystanders rfl)
  case read p =>
    fun_cases readStep s p ch <;> first | exact of_none | apply of_some
    all_goals first
      | exact .still rfl rfl rfl id (Nat.le_refl _) (bystanders rfl)
      | exact .still rfl rfl (items_other rfl) id (Nat.le_refl _) (bystanders rfl)
      | exact .still rfl rfl rfl id (leave_consumes _).le (bystanders (leave_bystander _))
      | exact .still rfl rfl (items_other rfl) id (leave_consumes _).le
          (bystanders (leave_bystander _))
  case terminal p =>
    fun_cases terminalStep s p ch <;> first | exact of_none | apply of_some
    all_goals first
      | exact .still rfl rfl rfl id (Nat.le_refl _) (bystanders rfl)
      | exact .still rfl rfl (items_other rfl) id (Nat.le_refl _) (bystanders rfl)
      | exact .still rfl rfl rfl (fun _ => rfl) (Nat.le_refl _) (bystanders rfl)
  case task p =>
    fun_cases taskStep cfg s p ch <;> first | exact of_none | apply of_some
    all_goals first
      | exact .still rfl rfl rfl id (Nat.le_refl _) (bystanders rfl)
      | exact .still rfl rfl (items_other rfl) id (Nat.le_refl _) (bystanders rfl)
      | exact .pushes rfl rfl (items_snoc _ _) id rfl rfl
      | exact .still (by simp) (by simp) (by simp) (by simp) (Nat.le_refl _) (bystanders rfl)
  case upload p =>
    fun_cases uploadStep cfg s p ch <;> first | exact of_none | apply of_some
    all_goals first
      | exact .still rfl rfl rfl id (Nat.le_refl _) (bystanders rfl)
      | exact .still rfl rfl (items_other rfl) id (Nat.le_refl _) (bystanders rfl)
  case cleanup p =>
    fun_cases cleanupStep s p ch <;> first | exact of_none | apply of_some
    all_goals first
      | exact .still rfl rfl rfl id (Nat.le_refl _) (bystanders rfl)
      | exact .still rfl rfl (items_other rfl) id (Nat.le_refl _) (bystanders rfl)
      | exact .still (by simp) (by simp) (by simp) (by simp) (Nat.le_refl _) (bystanders rfl)
  case execute p => exact executeStep_taking

end TokioCronet.Request
