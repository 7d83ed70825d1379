import TokioCronet.Reading.InOrder

/-!
# The end of the file

A `BidirectionalStream` remembers in `read_eof` that it has reported the end of the file.
`poll_next` and `poll_read` look there before they touch the channel, and so they report it
again. `next_chunk` looks neither there nor at what is left over: it goes on with the channel,
in which there may be another event, or none as long as somebody holds a sender; and it may
report the end of the file while part of a chunk has not been read.
-/

namespace TokioCronet.Reading

variable {β : Type} {r : Reader β} {a : Action β} {l : List (Action β)}

/-- The caller makes a call. -/
def Action.IsCall : Action β → Prop
  | .arrives _ | .closes => False
  | .nextChunk | .pollNext | .pollRead _ => True

/-- The call reports the end of the file. For `poll_read` it is an `Ok` with nothing put into
the output and nothing left over. -/
def ReportsEof (r : Reader β) : Action β → Prop
  | .arrives _ | .closes => False
  | .nextChunk => (BidirectionalStream.nextChunk r).1 = .ready none
  | .pollNext => (BidirectionalStream.pollNext r).1 = .ready none
  | .pollRead output => (BidirectionalStream.pollRead r output).1 = .ready (.ok ()) ∧
      (BidirectionalStream.pollRead r output).2.2 = output ∧
      (BidirectionalStream.pollRead r output).2.1.current = []

/-- The reader after an action. -/
def Reader.after (r : Reader β) (a : Action β) : Reader β :=
  (Session.apply .bidirectionalStream { reader := r } a).reader

/-- The reader after some actions. -/
def reader (l : List (Action β)) : Reader β := (session .bidirectionalStream l).reader

/-- Some call has reported the end of the file. -/
def Reported (l : List (Action β)) : Prop :=
  ∃ before a later, l = before ++ a :: later ∧ ReportsEof (reader before) a

/-- Once the end of the file has been reported, every call reports it again, without waiting
and without an event from the channel. -/
def StaysAtEof (l : List (Action β)) : Prop :=
  ∀ before a later, l = before ++ a :: later → Reported before → a.IsCall →
    ReportsEof (reader before) a ∧ ((reader before).after a).receiver = (reader before).receiver

/-- The call goes on behind the end of the file: `next_chunk` does where the channel has an
event or a sender, and the two others do where bytes are left over. -/
def GoesOn (r : Reader β) : Action β → Prop
  | .arrives _ | .closes => False
  | .nextChunk => r.readEof = true ∧ (r.receiver.queue ≠ [] ∨ r.receiver.closed = false)
  | .pollNext | .pollRead _ => r.readEof = true ∧ r.current ≠ []

/-! ## One call -/

/-- What `next_chunk` and `poll_next` take for the end of the file, they remember. -/
theorem recv_readEof : (r.recv .bidirectionalStream).2.readEof = true ↔
    r.readEof = true ∨ (r.recv .bidirectionalStream).1 = .ready none := by
  obtain ⟨⟨queue, closed⟩, current, readEof⟩ := r
  cases queue with
  | nil => cases closed <;> simp [Reader.recv, Receiver.pollRecv, Kind.ended]
  | cons item queue => cases item <;> simp [Reader.recv, Receiver.pollRecv, Kind.ended]

theorem pollNext_readEof : (r.pollNext .bidirectionalStream).2.readEof = true ↔
    r.readEof = true ∨ (r.pollNext .bidirectionalStream).1 = .ready none := by
  unfold Reader.pollNext
  split_ifs with hcurrent heof
  · simp
  · simp [heof]
  · exact recv_readEof

/-- A call that copies has something to show for it, or leaves something over. -/
theorem copyOut_shows {output : ReadBuf β} (h : r.current ≠ [])
    (hsame : (r.copyOut output).2.2 = output) : (r.copyOut output).2.1.current ≠ [] := by
  intro hnil
  have hlength : r.current.length ≤ min r.current.length output.remaining :=
    List.drop_eq_nil_iff.mp hnil
  have htaken : output.filled ++ r.current.take (min r.current.length output.remaining) =
      output.filled := congrArg ReadBuf.filled hsame
  rw [List.take_of_length_le hlength] at htaken
  exact h (List.self_eq_append_right.mp htaken.symm)

/-- The loop of `poll_read`. -/
theorem readLoop_readEof (output : ReadBuf β) (queue : List (Item β)) :
    ∀ r : Reader β, (r.readLoop .bidirectionalStream .pending output queue).2.1.readEof = true ↔
      r.readEof = true ∨
        (r.readLoop .bidirectionalStream .pending output queue).1 = .ready (.ok ()) ∧
        (r.readLoop .bidirectionalStream .pending output queue).2.2 = output ∧
        (r.readLoop .bidirectionalStream .pending output queue).2.1.current = [] := by
  have hcopies : ∀ r : Reader β, r.current ≠ [] → ((r.copyOut output).2.1.readEof = true ↔
      r.readEof = true ∨ (r.copyOut output).1 = .ready (.ok ()) ∧
        (r.copyOut output).2.2 = output ∧ (r.copyOut output).2.1.current = []) := by
    intro r hcurrent
    refine ⟨.inl, ?_⟩
    rintro (heof | ⟨-, hsame, hnil⟩)
    · exact heof
    · exact absurd hnil (copyOut_shows hcurrent hsame)
  induction queue with
  | nil =>
    intro r
    unfold Reader.readLoop
    split_ifs with hcurrent heof hclosed
    · exact hcopies r hcurrent
    · exact iff_of_true heof (.inl heof)
    · exact iff_of_true rfl (.inr ⟨rfl, rfl, not_not.mp hcurrent⟩)
    · simp
  | cons item queue ih =>
    intro r
    unfold Reader.readLoop
    split_ifs with hcurrent heof
    · exact hcopies r hcurrent
    · exact iff_of_true heof (.inl heof)
    · cases item with
      | chunk bytes => exact ih _
      | error e => simp
      | eof => exact iff_of_true rfl (.inr ⟨rfl, rfl, not_not.mp hcurrent⟩)

/-- **`read_eof` says that the end of the file has been reported.** -/
theorem after_readEof (r : Reader β) (a : Action β) :
    (r.after a).readEof = true ↔ r.readEof = true ∨ ReportsEof r a := by
  cases a with
  | arrives item =>
    rw [Reader.after, Session.apply]
    split_ifs
    · exact (or_iff_left id).symm
    · exact (or_iff_left id).symm
  | closes => exact (or_iff_left id).symm
  | nextChunk => exact recv_readEof
  | pollNext => exact pollNext_readEof
  | pollRead output => exact readLoop_readEof output r.receiver.queue r

/-- After that, `poll_read` looks only at what is left over. -/
theorem pollRead_atEof {output : ReadBuf β} (heof : r.readEof = true) :
    BidirectionalStream.pollRead r output =
      if r.current ≠ [] then r.copyOut output else (.ready (.ok ()), r, output) := by
  unfold BidirectionalStream.pollRead Reader.readLoop
  cases r.receiver.queue with
  | nil =>
    dsimp only
    rw [if_pos heof]
  | cons item queue =>
    dsimp only
    rw [if_pos heof]

/-- After that, a call reports it again or goes on, and does not do both. -/
theorem again_iff (heof : r.readEof = true) (hcall : a.IsCall) :
    ReportsEof r a ∧ (r.after a).receiver = r.receiver ↔ ¬ GoesOn r a := by
  cases a with
  | arrives item | closes => cases hcall
  | nextChunk =>
    obtain ⟨⟨queue, closed⟩, current, readEof⟩ := r
    cases queue with
    | nil =>
      cases closed with
      | false => exact iff_of_false (fun h => nomatch h.1) (fun h => h ⟨heof, .inr rfl⟩)
      | true =>
        refine iff_of_true ⟨rfl, rfl⟩ ?_
        rintro ⟨-, hqueue | hclosed⟩
        · exact hqueue rfl
        · cases hclosed
    | cons item queue =>
      -- the event is gone
      refine iff_of_false (fun h => ?_) (fun h => h ⟨heof, .inl (List.cons_ne_nil _ _)⟩)
      have hsame : queue = item :: queue := by
        have hreceiver := congrArg Receiver.queue h.2
        cases item <;> exact hreceiver
      exact absurd (congrArg List.length hsame) (Nat.ne_of_lt (Nat.lt_succ_self _))
  | pollNext =>
    show (r.pollNext .bidirectionalStream).1 = _ ∧
      (r.pollNext .bidirectionalStream).2.receiver = _ ↔ _
    unfold Reader.pollNext
    by_cases hcurrent : r.current ≠ []
    · rw [if_pos hcurrent]
      exact iff_of_false (fun h => nomatch h.1) (fun h => h ⟨heof, hcurrent⟩)
    · rw [if_neg hcurrent, if_pos heof]
      exact iff_of_true ⟨rfl, rfl⟩ fun h => hcurrent h.2
  | pollRead output =>
    show (_ ∧ _ ∧ _) ∧ (BidirectionalStream.pollRead r output).2.1.receiver = _ ↔ _
    rw [pollRead_atEof heof]
    by_cases hcurrent : r.current ≠ []
    · rw [if_pos hcurrent]
      refine iff_of_false (fun h => ?_) (fun h => h ⟨heof, hcurrent⟩)
      exact copyOut_shows hcurrent h.1.2.1 h.1.2.2
    · rw [if_neg hcurrent]
      exact iff_of_true ⟨⟨rfl, rfl, not_not.mp hcurrent⟩, rfl⟩ fun h => hcurrent h.2

/-! ## A list of actions -/

/-- What an action does to the reader does not depend on what has been read. -/
theorem apply_reader (s : Session β) (a : Action β) :
    (s.apply .bidirectionalStream a).reader = s.reader.after a := by
  cases a with
  | arrives item =>
    rw [Reader.after, Session.apply, Session.apply]
    split_ifs
    · rfl
    · rfl
  | closes | nextChunk | pollNext | pollRead output => rfl

theorem reader_snoc (l : List (Action β)) (a : Action β) :
    reader (l ++ [a]) = (reader l).after a := by
  rw [reader, session, List.foldl_append, List.foldl_cons, List.foldl_nil, apply_reader]
  rfl

theorem reported_snoc {a : Action β} :
    Reported (l ++ [a]) ↔ Reported l ∨ ReportsEof (reader l) a := by
  constructor
  · rintro ⟨before, b, later, hl, hb⟩
    rcases List.eq_nil_or_concat later with rfl | ⟨later, c, rfl⟩
    · obtain ⟨rfl, heq⟩ := List.append_inj' hl rfl
      obtain rfl := List.head_eq_of_cons_eq heq
      exact .inr hb
    · refine .inl ⟨before, b, later, ?_, hb⟩
      rw [List.concat_eq_append, ← List.cons_append, ← List.append_assoc] at hl
      exact (List.append_inj' hl rfl).1
  · rintro (⟨before, b, later, rfl, hb⟩ | ha)
    · exact ⟨before, b, later ++ [a], by rw [List.append_assoc]; rfl, hb⟩
    · exact ⟨l, a, [], rfl, ha⟩

theorem reported_iff (l : List (Action β)) : Reported l ↔ (reader l).readEof = true := by
  induction l using List.reverseRecOn with
  | nil =>
    refine iff_of_false ?_ Bool.false_ne_true
    rintro ⟨before, a, later, hl, -⟩
    exact List.append_ne_nil_of_right_ne_nil before (List.cons_ne_nil a later) hl.symm
  | append_singleton l a ih => rw [reported_snoc, reader_snoc, after_readEof, ih]

theorem GoesOn.isCall (h : GoesOn r a) : a.IsCall ∧ r.readEof = true := by
  cases a with
  | arrives item | closes => cases h
  | nextChunk | pollNext | pollRead output => exact ⟨trivial, h.1⟩

/-- **The end of the file stays where it is exactly if no call goes on behind it.** -/
theorem eof_stays (l : List (Action β)) : StaysAtEof l ↔
    ∀ before a later, l = before ++ a :: later → ¬ GoesOn (reader before) a := by
  constructor
  · intro hstays before a later hl hon
    obtain ⟨hcall, heof⟩ := hon.isCall
    have hagain := hstays before a later hl ((reported_iff before).mpr heof) hcall
    exact (again_iff heof hcall).mp hagain hon
  · intro hnever before a later hl hreported hcall
    exact (again_iff ((reported_iff before).mp hreported) hcall).mpr (hnever before a later hl)

/-- The file ends, and the native stream still holds its sender; then it fails. -/
def endingTwice : List (Action UInt8) :=
  [.arrives .eof, .pollNext, .arrives (.error .canceled), .nextChunk]

/-- The file ends behind a chunk of which a byte is left over. -/
def endingEarly : List (Action UInt8) :=
  [.arrives (.chunk [1, 2]), .arrives .eof, .pollRead { capacity := 1 }, .nextChunk, .pollNext]

/-- After the end of the file, `next_chunk` waits, or it returns an error; and `poll_next`
returns what was left over. -/
theorem eof_passed :
    (BidirectionalStream.pollNext (reader (endingTwice.take 1))).1 = .ready none ∧
    (BidirectionalStream.nextChunk (reader (endingTwice.take 2))).1 = .pending ∧
    (BidirectionalStream.nextChunk (reader (endingTwice.take 3))).1 =
      .ready (some (.error .canceled)) ∧
    ¬ StaysAtEof endingTwice ∧
    (BidirectionalStream.nextChunk (reader (endingEarly.take 3))).1 = .ready none ∧
    (BidirectionalStream.pollNext (reader (endingEarly.take 4))).1 = .ready (some (.ok [2])) ∧
    ¬ StaysAtEof endingEarly := by
  have hended : (BidirectionalStream.pollNext (reader (endingTwice.take 1))).1 = .ready none := by
    decide
  have hfailed : (BidirectionalStream.nextChunk (reader (endingTwice.take 3))).1 =
      .ready (some (.error .canceled)) := by decide
  have hended' : (BidirectionalStream.nextChunk (reader (endingEarly.take 3))).1 = .ready none := by
    decide
  have hleft : (BidirectionalStream.pollNext (reader (endingEarly.take 4))).1 =
      .ready (some (.ok [2])) := by decide
  refine ⟨hended, by decide, hfailed, fun h => ?_, hended', hleft, fun h => ?_⟩
  · have hagain : (BidirectionalStream.nextChunk (reader (endingTwice.take 3))).1 = .ready none :=
      (h (endingTwice.take 3) .nextChunk [] rfl ⟨_, .pollNext, _, rfl, hended⟩ trivial).1
    rw [hfailed] at hagain
    cases hagain
  · have hagain : (BidirectionalStream.pollNext (reader (endingEarly.take 4))).1 = .ready none :=
      (h (endingEarly.take 4) .pollNext [] rfl ⟨_, .nextChunk, _, rfl, hended'⟩ trivial).1
    rw [hleft] at hagain
    cases hagain

end TokioCronet.Reading
