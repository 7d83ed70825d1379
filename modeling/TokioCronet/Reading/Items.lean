import TokioCronet.Reading.Reader
import TokioCronet.Reading.InOrder

/-!
# The items of a body

`next_chunk` and `poll_next` hand on what is in the channel, one item a call. As long as
nobody uses `poll_read` nothing is ever left over, so what the two of them hand on together
is what was sent, in its order.
-/

namespace TokioCronet.Reading

variable {β : Type} {kind : Kind}

/-- What is handed to the consumer of a body. -/
def Item.result : Item β → Option (Result (List β))
  | .chunk bytes => some (.ok bytes)
  | .error e => some (.error e)
  | .eof => none

/-- The item that a call hands on; a body has none at its end, or while it is pending. -/
def Poll.item : Poll (Option (Except Error (List β))) → Option (Result (List β))
  | .ready answer => answer
  | .pending => none

/-- What an action adds to what was sent. -/
def Session.sends (kind : Kind) (s : Session β) : Action β → Option (Item β)
  | .arrives item => if s.reader.receiver.closed || !kind.sends item then none else some item
  | _ => none

/-- What it hands on. -/
def Session.hands (kind : Kind) (s : Session β) : Action β → Option (Result (List β))
  | .nextChunk => (kind.nextChunk s.reader).1.item
  | .pollNext => (kind.pollNext s.reader).1.item
  | _ => none

/-- What the actions put into the channel. -/
def sent (kind : Kind) (s : Session β) : List (Action β) → List (Item β)
  | [] => []
  | a :: l => (s.sends kind a).toList ++ sent kind (s.apply kind a) l

/-- What the actions get out of it. -/
def handed (kind : Kind) (s : Session β) : List (Action β) → List (Result (List β))
  | [] => []
  | a :: l => (s.hands kind a).toList ++ handed kind (s.apply kind a) l

/-- A call of `poll_read`. -/
def Action.reads : Action β → Bool
  | .pollRead _ => true
  | _ => false

/-- Nothing is left over and the end has not been read. -/
structure Whole (r : Reader β) : Prop where
  /-- No chunk is open. -/
  current : r.current = []
  /-- The end has not been read. -/
  readEof : r.readEof = false

/-- A call takes the first item, if there is one. -/
theorem recv_item {r : Reader β} (h : Whole r)
    (heof : Item.eof ∉ r.receiver.queue) : Whole (r.recv .responseBody).2 ∧
      (r.recv .responseBody).1.item.toList ++
        (r.recv .responseBody).2.receiver.queue.filterMap Item.result =
        r.receiver.queue.filterMap Item.result ∧
      (r.recv .responseBody).2.receiver.queue <:+ r.receiver.queue := by
  obtain ⟨⟨queue, closed⟩, current, readEof⟩ := r
  cases queue with
  | nil => cases closed <;> exact ⟨⟨h.current, h.readEof⟩, rfl, List.suffix_rfl⟩
  | cons item queue =>
    cases item with
    | chunk bytes => exact ⟨⟨h.current, h.readEof⟩, rfl, List.suffix_cons _ _⟩
    | error e => exact ⟨⟨h.current, h.readEof⟩, rfl, List.suffix_cons _ _⟩
    | eof => exact absurd List.mem_cons_self heof

theorem pollNext_whole {r : Reader β} (h : Whole r) :
    r.pollNext kind = r.recv kind := by
  rw [Reader.pollNext, if_neg (not_not.mpr h.current), h.readEof]
  exact if_neg Bool.false_ne_true

/-- **What a body hands on is what was sent, in its order.** -/
theorem handed_sent (l : List (Action β)) : ∀ s : Session β, Whole s.reader →
    Item.eof ∉ s.reader.receiver.queue → (∀ a ∈ l, a.reads = false) →
    handed .responseBody s l <+:
      (s.reader.receiver.queue ++ sent .responseBody s l).filterMap Item.result := by
  induction l with
  | nil => exact fun s _ _ _ => List.nil_prefix
  | cons a l ih =>
    intro s hs heof hl
    obtain ⟨ha, hrest⟩ := List.forall_mem_cons.mp hl
    have hcall : Whole (s.reader.recv .responseBody).2 ∧
        (s.reader.recv .responseBody).1.item.toList ++
          handed .responseBody { s with
            reader := (s.reader.recv .responseBody).2,
            returned := s.returned ++ (s.reader.recv .responseBody).1.bytes } l <+:
          (s.reader.receiver.queue ++ sent .responseBody { s with
            reader := (s.reader.recv .responseBody).2,
            returned := s.returned ++ (s.reader.recv .responseBody).1.bytes } l).filterMap
              Item.result := by
      obtain ⟨hwhole, hitem, hsuffix⟩ := recv_item hs heof
      refine ⟨hwhole, ?_⟩
      rw [List.filterMap_append, ← hitem, List.append_assoc, List.prefix_append_right_inj,
        ← List.filterMap_append]
      exact ih _ hwhole (fun hmem => heof (hsuffix.mem hmem)) hrest
    cases a with
    | arrives item =>
      rw [handed, sent, Session.sends]
      show handed .responseBody (s.apply .responseBody (.arrives item)) l <+: _
      rw [Session.apply]
      split_ifs with hsent
      · exact ih s hs heof hrest
      · have heof' : Item.eof ∉ s.reader.receiver.queue ++ [item] := by
          rw [List.mem_append, List.mem_singleton]
          rintro (hmem | rfl)
          · exact heof hmem
          · exact hsent (by rw [Kind.sends, Bool.not_false, Bool.or_true])
        have hlater := ih { s with
          reader.receiver.queue := s.reader.receiver.queue ++ [item],
          received := s.received ++ item.bytes } ⟨hs.current, hs.readEof⟩ heof' hrest
        rw [List.append_assoc] at hlater
        exact hlater
    | closes => exact ih _ ⟨hs.current, hs.readEof⟩ heof hrest
    | nextChunk => exact hcall.2
    | pollNext =>
      rw [handed, sent]
      show (s.reader.pollNext .responseBody).1.item.toList ++ handed .responseBody { s with
          reader := (s.reader.pollNext .responseBody).2,
          returned := s.returned ++ (s.reader.pollNext .responseBody).1.bytes } l <+:
        (s.reader.receiver.queue ++ sent .responseBody { s with
          reader := (s.reader.pollNext .responseBody).2,
          returned := s.returned ++ (s.reader.pollNext .responseBody).1.bytes } l).filterMap _
      rw [pollNext_whole hs]
      exact hcall.2
    | pollRead output => cases ha

end TokioCronet.Reading
