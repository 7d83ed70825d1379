import Mathlib.Data.List.Range
import TokioCronet.Lib.Pipe
import TokioCronet.Reading.Reader

/-!
# Reading in order

A reader is a pipe: chunks arrive in the channel, one may be open in `current`, and bytes
are returned. `poll_next` and `poll_read` finish what is left over before they touch the
channel. `next_chunk` does not look there, so it hands on the next chunk before the rest of
the one that `poll_read` has begun.
-/

namespace TokioCronet.Reading

variable {β γ : Type} {kind : Kind}

/-! ## Calls, one after the other -/

/-- The chunk in an item. -/
def Item.piece : Item β → Option (List β)
  | .chunk bytes => some bytes
  | _ => none

/-- The bytes in it. -/
def Item.bytes : Item β → List β
  | .chunk bytes => bytes
  | _ => []

/-- A `ResponseBody` is sent a `Result<Bytes>`. -/
def Kind.sends : Kind → Item β → Bool
  | .responseBody, .eof => false
  | _, _ => true

/-- `next_chunk` of either interface. -/
def Kind.nextChunk : Kind → Reader β → Poll (Option (Except Error (List β))) × Reader β
  | .responseBody => ResponseBody.nextChunk
  | .bidirectionalStream => BidirectionalStream.nextChunk

/-- `poll_next` of either interface. -/
def Kind.pollNext : Kind → Reader β → Poll (Option (Except Error (List β))) × Reader β
  | .responseBody => ResponseBody.pollNext
  | .bidirectionalStream => BidirectionalStream.pollNext

/-- `poll_read` of either interface. -/
def Kind.pollRead : Kind → Reader β → ReadBuf β → Poll (Except Error Unit) × Reader β × ReadBuf β
  | .responseBody => ResponseBody.pollRead
  | .bidirectionalStream => BidirectionalStream.pollRead

/-- The bytes that `next_chunk` or `poll_next` returns. -/
def Poll.bytes : Poll (Option (Except Error (List β))) → List β
  | .ready (some (.ok bytes)) => bytes
  | _ => []

/-- Something is sent, the last sender goes, or the caller makes a call; a call of
`next_chunk` that is given up while it waits is one that is pending. -/
inductive Action (β : Type) where
  | arrives (item : Item β)
  | closes
  | nextChunk
  | pollNext
  | pollRead (output : ReadBuf β)
  deriving DecidableEq

/-- A reader, the bytes of the chunks that it has received and the bytes that it has
returned. -/
structure Session (β : Type) where
  reader : Reader β := {}
  received : List β := []
  returned : List β := []
  deriving DecidableEq

/-- One action. -/
def Session.apply (kind : Kind) (s : Session β) : Action β → Session β
  | .arrives item =>
    if s.reader.receiver.closed || !kind.sends item then s
    else { s with
      reader.receiver.queue := s.reader.receiver.queue ++ [item],
      received := s.received ++ item.bytes }
  | .closes => { s with reader.receiver.closed := true }
  | .nextChunk =>
    let (answer, reader) := kind.nextChunk s.reader
    { s with reader := reader, returned := s.returned ++ answer.bytes }
  | .pollNext =>
    let (answer, reader) := kind.pollNext s.reader
    { s with reader := reader, returned := s.returned ++ answer.bytes }
  | .pollRead output =>
    let (_, reader, output') := kind.pollRead s.reader output
    { s with reader := reader, returned := s.returned ++ output'.filled.drop output.filled.length }

/-- A session in which these actions have been taken. -/
def session (kind : Kind) (l : List (Action β)) : Session β := l.foldl (Session.apply kind) {}

/-- `next_chunk` takes a chunk from the channel while bytes of another are left over. -/
def Skips (s : Session β) : Action β → Prop
  | .nextChunk => s.reader.current ≠ [] ∧
      ∃ bytes queue, s.reader.receiver.queue = .chunk bytes :: queue ∧ bytes ≠ []
  | _ => False

/-! ## A reader is a pipe -/

/-- What a pipe shows. -/
def see (received returned : List β) (r : Reader β) : Pipe.View β where
  received := received
  returned := returned
  current := r.current
  waiting := r.receiver.queue.filterMap Item.piece

/-- What the pipe sees of a session. -/
def Session.view (s : Session β) : Pipe.View β := see s.received s.returned s.reader

theorem see_ended {received returned : List β} {r : Reader β} :
    see received returned (kind.ended r) = see received returned r := by
  cases kind <;> rfl

/-- The channel gives its next item; a chunk goes to the caller. -/
theorem recv_moves {received returned : List β} {r : Reader β} (h : r.current = [] ∨
      ∀ bytes queue, r.receiver.queue = .chunk bytes :: queue → bytes = []) :
    Relation.ReflTransGen Pipe.Move (see received returned r)
      (see received (returned ++ (r.recv kind).1.bytes) (r.recv kind).2) := by
  obtain ⟨⟨queue, closed⟩, current, readEof⟩ := r
  cases queue with
  | nil =>
    cases closed with
    | false =>
      show Relation.ReflTransGen _ _ (see received (returned ++ []) _)
      rw [List.append_nil]
      exact .refl
    | true =>
      show Relation.ReflTransGen _ _ (see received (returned ++ []) (kind.ended _))
      rw [see_ended, List.append_nil]
  | cons item queue =>
    cases item with
    | chunk bytes =>
      rcases h with hnil | hempty
      · have hnil' : current = [] := hnil
        subst hnil'
        -- the chunk is opened and returned as a whole
        refine .tail (.single (.opens rfl rfl)) ?_
        exact .returns (List.append_nil bytes).symm
      · have hnil : bytes = [] := hempty bytes queue rfl
        subst hnil
        show Relation.ReflTransGen _ _ (see received (returned ++ []) _)
        rw [List.append_nil]
        exact .single (.drops rfl)
    | error e =>
      show Relation.ReflTransGen _ _ (see received (returned ++ []) _)
      rw [List.append_nil]
      exact .refl
    | eof =>
      show Relation.ReflTransGen _ _ (see received (returned ++ []) (kind.ended _))
      rw [see_ended, List.append_nil]
      exact .refl

theorem pollNext_moves {received returned : List β} {r : Reader β} :
    Relation.ReflTransGen Pipe.Move (see received returned r)
      (see received (returned ++ (r.pollNext kind).1.bytes) (r.pollNext kind).2) := by
  unfold Reader.pollNext
  by_cases hcurrent : r.current ≠ []
  · rw [if_pos hcurrent]
    exact .single (.returns (List.append_nil r.current).symm)
  · rw [if_neg hcurrent]
    by_cases heof : r.readEof = true
    · rw [if_pos heof]
      show Relation.ReflTransGen _ _ (see received (returned ++ []) r)
      rw [List.append_nil]
    · rw [if_neg heof]
      exact recv_moves (.inl (not_not.mp hcurrent))

theorem copyOut_moves {received returned : List β} {r : Reader β} {output : ReadBuf β} :
    ∃ now, (r.copyOut output).2.2.filled = output.filled ++ now ∧
      Relation.ReflTransGen Pipe.Move (see received returned r)
        (see received (returned ++ now) (r.copyOut output).2.1) :=
  ⟨_, rfl, .single (.returns (List.take_append_drop _ r.current).symm)⟩

/-- `poll_read` opens the next chunk only when nothing is left over. -/
theorem readLoop_moves (kind : Kind) (received returned : List β)
    (stuck : Poll (Except Error Unit)) (output : ReadBuf β) (queue : List (Item β)) :
    ∀ r : Reader β, r.receiver.queue = queue →
      ∃ now, (r.readLoop kind stuck output queue).2.2.filled = output.filled ++ now ∧
        Relation.ReflTransGen Pipe.Move (see received returned r)
          (see received (returned ++ now) (r.readLoop kind stuck output queue).2.1) := by
  have hnone : ∀ r r' : Reader β, see received returned r' = see received returned r →
      ∃ now, output.filled = output.filled ++ now ∧
        Relation.ReflTransGen Pipe.Move (see received returned r)
          (see received (returned ++ now) r') := by
    intro r r' heq
    refine ⟨[], (List.append_nil _).symm, ?_⟩
    rw [List.append_nil, heq]
  induction queue with
  | nil =>
    intro r hr
    unfold Reader.readLoop
    split_ifs with hcurrent heof hclosed
    · exact copyOut_moves
    · exact hnone r r rfl
    · exact hnone r _ see_ended
    · exact hnone r r rfl
  | cons item queue ih =>
    intro r hr
    unfold Reader.readLoop
    split_ifs with hcurrent heof
    · exact copyOut_moves
    · exact hnone r r rfl
    · have hnil : r.current = [] := not_not.mp hcurrent
      cases item with
      | chunk bytes =>
        obtain ⟨now, hnow, hmoves⟩ := ih
          { r with receiver := { r.receiver with queue := queue }, current := bytes } rfl
        refine ⟨now, hnow, .head (.opens hnil ?_) hmoves⟩
        show r.receiver.queue.filterMap Item.piece = _
        rw [hr]
        rfl
      | error e =>
        refine hnone r _ ?_
        rw [see, see, hr]
        rfl
      | eof =>
        refine hnone r _ (see_ended.trans ?_)
        rw [see, see, hr]
        rfl

theorem responseBody_pollRead {r : Reader β} {output : ReadBuf β} :
    ResponseBody.pollRead r output = r.readLoop .responseBody .pending output r.receiver.queue := by
  rw [ResponseBody.pollRead, if_neg (not_not.mpr rfl)]

theorem pollRead_eq {r : Reader β} {output : ReadBuf β} :
    kind.pollRead r output = r.readLoop kind .pending output r.receiver.queue := by
  cases kind with
  | responseBody => exact responseBody_pollRead
  | bidirectionalStream => rfl

theorem nextChunk_eq {r : Reader β} : kind.nextChunk r = r.recv kind := by
  cases kind <;> rfl

theorem pollNext_eq {r : Reader β} : kind.pollNext r = r.pollNext kind := by
  cases kind <;> rfl

/-- **A reader is a pipe**, and `next_chunk` on a reader that has bytes left over is a
skip. -/
theorem machine (kind : Kind) :
    Pipe.Machine (Session.apply kind) (Session.view (β := β)) Skips where
  moves := by
    intro s a hskips
    cases a with
    | arrives item =>
      rw [Session.apply]
      split_ifs with hsent
      · exact .refl
      · show Relation.ReflTransGen _ _ { s.view with
          received := s.received ++ item.bytes,
          waiting := (s.reader.receiver.queue ++ [item]).filterMap Item.piece }
        rw [List.filterMap_append]
        cases item with
        | chunk bytes => exact .single (.arrives bytes)
        | error e | eof =>
          show Relation.ReflTransGen _ _ { s.view with
            received := s.received ++ [], waiting := s.view.waiting ++ [] }
          rw [List.append_nil, List.append_nil]
          exact .refl
    | closes => exact .refl
    | nextChunk =>
      show Relation.ReflTransGen _ _
        (see s.received (s.returned ++ (kind.nextChunk s.reader).1.bytes)
          (kind.nextChunk s.reader).2)
      rw [nextChunk_eq]
      refine recv_moves ?_
      by_cases hcurrent : s.reader.current = []
      · exact .inl hcurrent
      · right
        intro bytes queue hq
        by_contra hbytes
        exact hskips ⟨hcurrent, bytes, queue, hq, hbytes⟩
    | pollNext =>
      show Relation.ReflTransGen _ _
        (see s.received (s.returned ++ (kind.pollNext s.reader).1.bytes) (kind.pollNext s.reader).2)
      rw [pollNext_eq]
      exact pollNext_moves
    | pollRead output =>
      obtain ⟨now, hnow, hmoves⟩ :=
        readLoop_moves kind s.received s.returned .pending output _ s.reader rfl
      show Relation.ReflTransGen _ _ (see s.received (s.returned ++
        (kind.pollRead s.reader output).2.2.filled.drop output.filled.length)
        (kind.pollRead s.reader output).2.1)
      rw [pollRead_eq, hnow, List.drop_left]
      exact hmoves
  skips := by
    intro s a hskips
    cases a with
    | nextChunk =>
      obtain ⟨hcurrent, bytes, queue, hq, hbytes⟩ := hskips
      have hw : s.view.waiting = bytes :: queue.filterMap Item.piece := by
        show s.reader.receiver.queue.filterMap Item.piece = _
        rw [hq]
        rfl
      have hpass := Pipe.Skip.passes (v := s.view) hcurrent hbytes hw
      show Pipe.Skip _ (see s.received (s.returned ++ (kind.nextChunk s.reader).1.bytes)
        (kind.nextChunk s.reader).2)
      rw [nextChunk_eq, Reader.recv, Receiver.pollRecv, hq]
      exact hpass
    | _ => exact absurd hskips id

/-! ## The bytes and their places -/

/-- An item of other bytes. -/
def Item.map (f : β → γ) : Item β → Item γ
  | .chunk bytes => .chunk (bytes.map f)
  | .error e => .error e
  | .eof => .eof

/-- A receiver of other bytes. -/
def Receiver.map (f : β → γ) (r : Receiver β) : Receiver γ :=
  { queue := r.queue.map (Item.map f), closed := r.closed }

/-- A reader of other bytes. -/
def Reader.map (f : β → γ) (r : Reader β) : Reader γ :=
  { receiver := r.receiver.map f, current := r.current.map f, readEof := r.readEof }

/-- A buffer of other bytes. -/
def ReadBuf.map (f : β → γ) (output : ReadBuf β) : ReadBuf γ :=
  { filled := output.filled.map f, capacity := output.capacity }

/-- A session of other bytes. -/
def Session.map (f : β → γ) (s : Session β) : Session γ :=
  { reader := s.reader.map f, received := s.received.map f, returned := s.returned.map f }

/-- An action of other bytes. -/
def Action.map (f : β → γ) : Action β → Action γ
  | .arrives item => .arrives (item.map f)
  | .closes => .closes
  | .nextChunk => .nextChunk
  | .pollNext => .pollNext
  | .pollRead output => .pollRead (output.map f)

/-- The bytes that an action brings. -/
def Action.bytes : Action β → List β
  | .arrives item => item.bytes
  | _ => []

/-- Every byte with its place among all that are sent; `n` were sent before. -/
def Action.number (n : Nat) : Action β → Action (β × Nat)
  | .arrives (.chunk bytes) => .arrives (.chunk (bytes.zipIdx n))
  | .arrives (.error e) => .arrives (.error e)
  | .arrives .eof => .arrives .eof
  | .closes => .closes
  | .nextChunk => .nextChunk
  | .pollNext => .pollNext
  | .pollRead output => .pollRead (output.map fun b => (b, 0))

/-- The bytes that arrive, numbered from some number on. -/
def number (n : Nat) : List (Action β) → List (Action (β × Nat))
  | [] => []
  | a :: l => a.number n :: number (n + a.bytes.length) l

/-- The bytes that were returned are a prefix of the bytes of the chunks that were received,
and each is the one from its place: none is skipped, repeated or moved. -/
structure Delivered (kind : Kind) (l : List (Action β)) : Prop where
  /-- They are a beginning of what was received. -/
  bytes : (session kind l).returned <+: (session kind l).received
  /-- So are the bytes with their places. -/
  places : (session kind (number 0 l)).returned <+: (session kind (number 0 l)).received

theorem action_forget (n : ℕ) (a : Action β) : (a.number n).map Prod.fst = a := by
  cases a with
  | arrives item =>
    cases item with
    | chunk bytes =>
      show Action.arrives (.chunk ((bytes.zipIdx n).map Prod.fst)) = _
      rw [List.zipIdx_map_fst]
    | error e | eof => rfl
  | pollRead output =>
    have hfilled : (output.filled.map fun b => (b, 0)).map Prod.fst = output.filled := by
      rw [List.map_map]
      exact List.map_id _
    show Action.pollRead { filled := (output.filled.map fun b => (b, 0)).map Prod.fst, .. } = _
    exact congrArg (fun l => Action.pollRead { output with filled := l }) hfilled
  | _ => rfl

theorem number_forget (l : List (Action β)) : ∀ n, (number n l).map (Action.map Prod.fst) = l := by
  induction l with
  | nil => exact fun n => rfl
  | cons a l ih =>
    intro n
    rw [number, List.map_cons, action_forget, ih]

theorem number_take (l : List (Action β)) : ∀ n k, (number n l).take k = number n (l.take k) := by
  induction l with
  | nil =>
    intro n k
    rw [List.take_nil]
    exact List.take_nil
  | cons a l ih =>
    intro n k
    cases k with
    | zero => rfl
    | succ k => rw [number, List.take_succ_cons, List.take_succ_cons, number, ih]

theorem number_append (k l : List (Action β)) : ∀ n,
    number n (k ++ l) = number n k ++ number (n + (k.flatMap Action.bytes).length) l := by
  induction k with
  | nil => exact fun n => rfl
  | cons a k ih =>
    intro n
    rw [List.cons_append, number, number, ih, List.flatMap_cons, List.length_append, Nat.add_assoc,
      List.cons_append]

/-- The numbers of a part are those that it has in the whole. -/
theorem number_part {l : List (Action β)} {m : List (Action (β × ℕ))} (h : m <+: number 0 l) :
    number 0 (m.map (Action.map Prod.fst)) = m := by
  have htake := List.prefix_iff_eq_take.mp h
  rw [number_take] at htake
  rw [htake, number_forget]

theorem number_bytes (l : List (Action β)) : ∀ n,
    (number n l).flatMap Action.bytes = (l.flatMap Action.bytes).zipIdx n := by
  induction l with
  | nil => exact fun n => rfl
  | cons a l ih =>
    intro n
    have ha : (a.number n).bytes = a.bytes.zipIdx n := by
      cases a with
      | arrives item => cases item <;> rfl
      | _ => rfl
    rw [number, List.flatMap_cons, List.flatMap_cons, List.zipIdx_append, ha, ih]

theorem received_sublist (l : List (Action β)) : ∀ s : Session β,
    (l.foldl (Session.apply kind) s).received.Sublist (s.received ++ l.flatMap Action.bytes) := by
  induction l with
  | nil =>
    intro s
    exact List.sublist_append_left _ _
  | cons a l ih =>
    intro s
    refine (ih (s.apply kind a)).trans ?_
    rw [List.flatMap_cons, ← List.append_assoc]
    refine List.Sublist.append_right ?_ _
    cases a with
    | arrives item =>
      rw [Session.apply]
      split_ifs
      · exact List.sublist_append_left _ _
      · exact List.Sublist.refl _
    | _ => exact List.sublist_append_left _ _

theorem numbered_nodup (l : List (Action β)) : (session kind (number 0 l)).received.Nodup := by
  refine List.Nodup.sublist (received_sublist (number 0 l) {}) ?_
  rw [List.nil_append, number_bytes]
  refine List.Nodup.of_map Prod.snd ?_
  rw [List.zipIdx_map_snd]
  exact List.nodup_range'

/-! ## The bytes are only carried -/

variable {f : β → γ}

theorem ended_map {r : Reader β} : kind.ended (r.map f) = (kind.ended r).map f := by
  cases kind <;> rfl

theorem recv_map (kind : Kind) (f : β → γ) (r : Reader β) :
    ((r.map f).recv kind).1.bytes = (r.recv kind).1.bytes.map f ∧
      ((r.map f).recv kind).2 = (r.recv kind).2.map f := by
  obtain ⟨⟨queue, closed⟩, current, readEof⟩ := r
  cases queue with
  | nil =>
    cases closed with
    | false => exact ⟨rfl, rfl⟩
    | true => cases kind <;> exact ⟨rfl, rfl⟩
  | cons item queue =>
    cases item with
    | chunk bytes => exact ⟨rfl, rfl⟩
    | error e => exact ⟨rfl, rfl⟩
    | eof => cases kind <;> exact ⟨rfl, rfl⟩

theorem current_map {r : Reader β} : (r.map f).current ≠ [] ↔ r.current ≠ [] :=
  not_congr List.map_eq_nil_iff

theorem pollNext_map (kind : Kind) (f : β → γ) (r : Reader β) :
    ((r.map f).pollNext kind).1.bytes = (r.pollNext kind).1.bytes.map f ∧
      ((r.map f).pollNext kind).2 = (r.pollNext kind).2.map f := by
  rw [Reader.pollNext, Reader.pollNext]
  by_cases hcurrent : r.current ≠ []
  · rw [if_pos hcurrent, if_pos (current_map.mpr hcurrent)]
    exact ⟨rfl, rfl⟩
  · rw [if_neg hcurrent, if_neg (mt current_map.mp hcurrent)]
    by_cases heof : r.readEof = true
    · rw [if_pos heof, if_pos (show (r.map f).readEof = true from heof)]
      exact ⟨rfl, rfl⟩
    · rw [if_neg heof, if_neg (show ¬ (r.map f).readEof = true from heof)]
      exact recv_map kind f r

theorem remaining_map {output : ReadBuf β} : (output.map f).remaining = output.remaining :=
  congrArg (output.capacity - ·) (List.length_map f)

theorem copyOut_map {r : Reader β} {output : ReadBuf β} :
    (r.map f).copyOut (output.map f) =
      ((r.copyOut output).1, (r.copyOut output).2.1.map f, (r.copyOut output).2.2.map f) := by
  have hcount : min (r.map f).current.length (output.map f).remaining =
      min r.current.length output.remaining := by
    rw [remaining_map]
    exact congrArg (min · _) (List.length_map f)
  rw [Reader.copyOut, hcount, Reader.copyOut]
  refine congrArg₂ _ rfl (congrArg₂ _ ?_ ?_)
  · exact congrArg (fun l => ({ (r.map f) with current := l } : Reader γ)) List.map_drop.symm
  · refine congrArg (fun l => ({ (output.map f) with filled := l } : ReadBuf γ)) ?_
    show output.filled.map f ++ (r.current.map f).take _ = (output.filled ++ _).map f
    rw [List.map_append, List.map_take]

theorem readLoop_map (kind : Kind) (f : β → γ) (stuck : Poll (Except Error Unit))
    (output : ReadBuf β) (queue : List (Item β)) : ∀ r : Reader β,
      (r.map f).readLoop kind stuck (output.map f) (queue.map (Item.map f)) =
        ((r.readLoop kind stuck output queue).1, (r.readLoop kind stuck output queue).2.1.map f,
          (r.readLoop kind stuck output queue).2.2.map f) := by
  induction queue with
  | nil =>
    intro r
    rw [List.map_nil, Reader.readLoop, Reader.readLoop]
    by_cases hcurrent : r.current ≠ []
    · rw [if_pos hcurrent, if_pos (current_map.mpr hcurrent)]
      exact copyOut_map
    · rw [if_neg hcurrent, if_neg (mt current_map.mp hcurrent)]
      by_cases heof : r.readEof = true
      · rw [if_pos heof, if_pos (show (r.map f).readEof = true from heof)]
      · rw [if_neg heof, if_neg (show ¬ (r.map f).readEof = true from heof)]
        by_cases hclosed : r.receiver.closed = true
        · rw [if_pos hclosed, if_pos (show (r.map f).receiver.closed = true from hclosed),
            ended_map]
        · rw [if_neg hclosed, if_neg (show ¬ (r.map f).receiver.closed = true from hclosed)]
  | cons item queue ih =>
    intro r
    rw [List.map_cons]
    unfold Reader.readLoop
    by_cases hcurrent : r.current ≠ []
    · rw [if_pos hcurrent, if_pos (current_map.mpr hcurrent)]
      exact copyOut_map
    · rw [if_neg hcurrent, if_neg (mt current_map.mp hcurrent)]
      by_cases heof : r.readEof = true
      · rw [if_pos heof, if_pos (show (r.map f).readEof = true from heof)]
      · rw [if_neg heof, if_neg (show ¬ (r.map f).readEof = true from heof)]
        cases item with
        | chunk bytes =>
          exact ih { r with receiver := { r.receiver with queue := queue }, current := bytes }
        | error e => rfl
        | eof => cases kind <;> rfl

theorem apply_map {s : Session β} {a : Action β} :
    (s.map f).apply kind (a.map f) = (s.apply kind a).map f := by
  cases a with
  | arrives item =>
    have hsends : kind.sends (item.map f) = kind.sends item := by
      cases kind <;> cases item <;> rfl
    have hbytes : (item.map f).bytes = item.bytes.map f := by
      cases item <;> rfl
    show (if s.reader.receiver.closed || !kind.sends (item.map f) then s.map f else _) = _
    rw [hsends, Session.apply]
    split_ifs
    · rfl
    · show Session.mk { s.reader.map f with
          receiver.queue := s.reader.receiver.queue.map (Item.map f) ++ [item.map f] }
          (s.received.map f ++ (item.map f).bytes) (s.returned.map f) = _
      rw [hbytes, ← List.map_append]
      show Session.mk { s.reader.map f with receiver.queue := _ ++ [item].map (Item.map f) } _ _ = _
      rw [← List.map_append]
      rfl
  | closes => rfl
  | nextChunk =>
    obtain ⟨hbytes, hreader⟩ := recv_map kind f s.reader
    show Session.mk (kind.nextChunk (s.reader.map f)).2 (s.received.map f)
      (s.returned.map f ++ (kind.nextChunk (s.reader.map f)).1.bytes) = _
    rw [nextChunk_eq, hbytes, hreader, ← List.map_append, ← nextChunk_eq]
    rfl
  | pollNext =>
    obtain ⟨hbytes, hreader⟩ := pollNext_map kind f s.reader
    show Session.mk (kind.pollNext (s.reader.map f)).2 (s.received.map f)
      (s.returned.map f ++ (kind.pollNext (s.reader.map f)).1.bytes) = _
    rw [pollNext_eq, hbytes, hreader, ← List.map_append, ← pollNext_eq]
    rfl
  | pollRead output =>
    have hloop := readLoop_map kind f .pending output s.reader.receiver.queue s.reader
    show Session.mk (kind.pollRead (s.reader.map f) (output.map f)).2.1 (s.received.map f)
      (s.returned.map f ++ (kind.pollRead (s.reader.map f) (output.map f)).2.2.filled.drop
        (output.filled.map f).length) = _
    rw [pollRead_eq, show (s.reader.map f).receiver.queue =
      s.reader.receiver.queue.map (Item.map f) from rfl, hloop, List.length_map, ← pollRead_eq]
    show Session.mk _ _ (_ ++ (List.map f _).drop _) = _
    rw [← List.map_drop, ← List.map_append]
    rfl

theorem foldl_map (kind : Kind) (f : β → γ) (l : List (Action β)) : ∀ s : Session β,
    (l.map (Action.map f)).foldl (Session.apply kind) (s.map f) =
      (l.foldl (Session.apply kind) s).map f := by
  induction l with
  | nil => exact fun s => rfl
  | cons a l ih =>
    intro s
    rw [List.map_cons, List.foldl_cons, apply_map, ih]
    rfl

/-- The places that the bytes are given change nothing. -/
theorem session_number (l : List (Action β)) :
    (session kind (number 0 l)).map Prod.fst = session kind l := by
  have hmap := foldl_map kind Prod.fst (number 0 l) {}
  rw [number_forget] at hmap
  exact hmap.symm

theorem skips_map {s : Session β} {a : Action β} :
    Skips (s.map f) (a.map f) ↔ Skips s a := by
  cases a with
  | nextChunk =>
    show (s.reader.current.map f ≠ [] ∧ ∃ bytes queue,
      s.reader.receiver.queue.map (Item.map f) = .chunk bytes :: queue ∧ bytes ≠ []) ↔ _
    refine and_congr (not_congr List.map_eq_nil_iff) ?_
    cases hq : s.reader.receiver.queue with
    | nil => exact ⟨fun ⟨_, _, h, _⟩ => (nomatch h), fun ⟨_, _, h, _⟩ => (nomatch h)⟩
    | cons item queue =>
      constructor
      · rintro ⟨bytes, _, heq, hbytes⟩
        cases item with
        | chunk bytes' =>
          obtain ⟨hhead, -⟩ := List.cons.inj heq
          refine ⟨bytes', queue, rfl, ?_⟩
          rintro rfl
          exact hbytes (Item.chunk.inj hhead).symm
        | error e | eof => cases (List.cons.inj heq).1
      · rintro ⟨bytes, _, heq, hbytes⟩
        cases heq
        exact ⟨bytes.map f, queue.map (Item.map f), rfl, mt List.map_eq_nil_iff.mp hbytes⟩
  | _ => exact Iff.rfl

/-! ## The interfaces, one after another -/

/-- **The bytes come in order, each once, exactly if `next_chunk` is never called while
`poll_read` has left part of a chunk and another waits in the channel.** -/
theorem reading_in_order (kind : Kind) (l : List (Action UInt8)) :
    (∀ k, k <+: l → Delivered kind k) ↔
      ∀ k a r, l = k ++ a :: r → ¬ Skips (session kind k) a := by
  have hpipe := (machine kind).inOrder_iff (number 0 l) {} rfl (numbered_nodup l)
  constructor
  · intro hall k a r heq hskip
    have hplaces : ∀ m, m <+: number 0 l → (session kind m).view.InOrder := by
      intro m hm
      have hk : m.map (Action.map Prod.fst) <+: l := number_forget l 0 ▸ hm.map _
      have hdelivered := (hall _ hk).places
      rw [number_part hm] at hdelivered
      exact hdelivered
    -- the step as the numbered reader takes it
    obtain ⟨n, r', hsplit⟩ : ∃ n r', number 0 l = number 0 k ++ a.number n :: r' := by
      rw [heq, number_append]
      exact ⟨_, _, rfl⟩
    refine hpipe.mp hplaces _ _ _ hsplit ?_
    rw [← skips_map (f := Prod.fst), action_forget]
    exact (session_number k).symm ▸ hskip
  · intro hnone k hk
    have hnever : ∀ m b r, number 0 l = m ++ b :: r → ¬ Skips (session kind m) b := by
      intro m b r heq hskip
      have hm : m <+: number 0 l := heq ▸ List.prefix_append m (b :: r)
      have hl := number_forget l 0
      rw [heq, List.map_append, List.map_cons] at hl
      refine hnone _ _ _ hl.symm ?_
      rw [← session_number, number_part hm]
      exact skips_map.mpr hskip
    have hin : (session kind (number 0 k)).view.InOrder := by
      refine hpipe.mpr hnever (number 0 k) ?_
      rw [List.prefix_iff_eq_take.mp hk, ← number_take]
      exact List.take_prefix _ _
    refine ⟨?_, hin⟩
    rw [← session_number k]
    exact hin.map Prod.fst

/-- Two chunks, one of two bytes and one of one; the caller reads a byte and then a chunk. -/
def overtaking : List (Action UInt8) :=
  [.arrives (.chunk [1, 2]), .arrives (.chunk [3]), .pollRead { capacity := 1 }, .nextChunk]

theorem overtaken (kind : Kind) : (session kind overtaking).returned = [1, 3] ∧
    (session kind overtaking).received = [1, 2, 3] := by
  cases kind with
  | responseBody => decide
  | bidirectionalStream => decide

/-- The third byte is returned after the first, by either type. -/
theorem reading_overtakes :
    ¬ Delivered .responseBody overtaking ∧ ¬ Delivered .bidirectionalStream overtaking := by
  have hnot : ∀ kind, ¬ Delivered kind overtaking := by
    intro kind hdelivered
    obtain ⟨hreturned, hreceived⟩ := overtaken kind
    have hprefix := hdelivered.bytes
    rw [hreturned, hreceived] at hprefix
    exact absurd hprefix (by decide)
  exact ⟨hnot .responseBody, hnot .bidirectionalStream⟩

end TokioCronet.Reading
