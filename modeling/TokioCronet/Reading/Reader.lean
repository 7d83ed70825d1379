import TokioCronet.Types

/-!
# The reading interfaces

`ResponseBody` and `BidirectionalStream` can be read through `next_chunk`, through
`Stream::poll_next` and through `AsyncRead::poll_read`. The three share one channel, and
`poll_read` leaves the rest of a chunk in `current`; each decides for itself whether it
looks there first. None of them looks at a byte, so the bytes are of any type.
-/

namespace TokioCronet.Reading

variable {β : Type}

/-- `Poll`. -/
inductive Poll (α : Type) where
  | ready (value : α)
  | pending
  deriving DecidableEq

/-- What is sent to a reader: a `Result<Bytes>`, or a `ReadEvent`, which may be `Eof`. -/
inductive Item (β : Type) where
  | chunk (bytes : List β)
  | error (error : Error)
  | eof
  deriving DecidableEq

/-- `mpsc::Receiver`: what is in the channel, and whether all its senders are gone. -/
structure Receiver (β : Type) where
  queue : List (Item β) := []
  closed : Bool := false
  deriving DecidableEq

/-- `ReadBuf`: what is in it, and how much it can hold. -/
structure ReadBuf (β : Type) where
  filled : List β := []
  capacity : Nat
  deriving DecidableEq

/-- `ReadBuf::remaining` -/
def ReadBuf.remaining (output : ReadBuf β) : Nat := output.capacity - output.filled.length

/-- `ReadBuf::put_slice` -/
def ReadBuf.putSlice (output : ReadBuf β) (bytes : List β) : ReadBuf β :=
  { output with filled := output.filled ++ bytes }

/-- The two types that are read. -/
inductive Kind where
  | responseBody
  | bidirectionalStream
  deriving DecidableEq

/-- What a read changes in either of them; a `ResponseBody` has no `read_eof`. -/
structure Reader (β : Type) where
  receiver : Receiver β := {}
  current : List β := []
  readEof : Bool := false
  deriving DecidableEq

/-- Only a `BidirectionalStream` remembers that it has ended. -/
def Kind.ended (kind : Kind) (r : Reader β) : Reader β :=
  match kind with
  | .responseBody => r
  | .bidirectionalStream => { r with readEof := true }

/-- `poll_recv` -/
def Receiver.pollRecv (r : Receiver β) : Poll (Option (Item β)) × Receiver β :=
  match r.queue with
  | item :: queue => (.ready (some item), { r with queue := queue })
  | [] => if r.closed then (.ready none, r) else (.pending, r)

/-- What `next_chunk` and `poll_next` make of what the channel holds. -/
def Reader.recv (kind : Kind) (r : Reader β) :
    Poll (Option (Except Error (List β))) × Reader β :=
  match r.receiver.pollRecv with
  | (.ready (some (.chunk bytes)), receiver) =>
    (.ready (some (.ok bytes)), { r with receiver := receiver })
  | (.ready (some (.error e)), receiver) =>
    (.ready (some (.error e)), { r with receiver := receiver })
  | (.ready (some .eof), receiver) | (.ready none, receiver) =>
    (.ready none, kind.ended { r with receiver := receiver })
  | (.pending, receiver) => (.pending, { r with receiver := receiver })

/-- `poll_next` -/
def Reader.pollNext (kind : Kind) (r : Reader β) :
    Poll (Option (Except Error (List β))) × Reader β :=
  if r.current ≠ [] then (.ready (some (.ok r.current)), { r with current := [] })
  else if r.readEof then (.ready none, r)
  else r.recv kind

/-- What is left over goes to the output, as far as it fits. -/
def Reader.copyOut (r : Reader β) (output : ReadBuf β) :
    Poll (Except Error Unit) × Reader β × ReadBuf β :=
  let count := min r.current.length output.remaining
  (.ready (.ok ()), { r with current := r.current.drop count },
    output.putSlice (r.current.take count))

/-- The loop of `poll_read`, over what is in the channel; `stuck` is what it returns when
nothing is. -/
def Reader.readLoop (kind : Kind) (stuck : Poll (Except Error Unit)) (output : ReadBuf β) :
    List (Item β) → Reader β → Poll (Except Error Unit) × Reader β × ReadBuf β
  | [], r =>
    if r.current ≠ [] then r.copyOut output
    else if r.readEof then (.ready (.ok ()), r, output)
    else if r.receiver.closed then (.ready (.ok ()), kind.ended r, output)
    else (stuck, r, output)
  | item :: queue, r =>
    if r.current ≠ [] then r.copyOut output
    else if r.readEof then (.ready (.ok ()), r, output)
    else
      match item with
      | .chunk bytes => readLoop kind stuck output queue
          { r with receiver := { r.receiver with queue := queue }, current := bytes }
      | .error e =>
        (.ready (.error e), { r with receiver := { r.receiver with queue := queue } }, output)
      | .eof =>
        (.ready (.ok ()), kind.ended { r with receiver := { r.receiver with queue := queue } },
          output)

/-! ## The members -/

/-- `ResponseBody::next_chunk` -/
def ResponseBody.nextChunk (r : Reader β) : Poll (Option (Except Error (List β))) × Reader β :=
  r.recv .responseBody

/-- `Stream::poll_next` of `ResponseBody` -/
def ResponseBody.pollNext (r : Reader β) : Poll (Option (Except Error (List β))) × Reader β :=
  r.pollNext .responseBody

/-- `Poll::Pending if output.filled().len() != starting => return Poll::Ready(Ok(()))` is
never taken: a call that has put something into the output has returned. -/
def ResponseBody.pollRead (r : Reader β) (output : ReadBuf β) :
    Poll (Except Error Unit) × Reader β × ReadBuf β :=
  let starting := output.filled.length
  r.readLoop .responseBody
    (if output.filled.length ≠ starting then .ready (.ok ()) else .pending) output r.receiver.queue

/-- `BidirectionalStream::next_chunk` -/
def BidirectionalStream.nextChunk (r : Reader β) :
    Poll (Option (Except Error (List β))) × Reader β :=
  r.recv .bidirectionalStream

/-- `Stream::poll_next` of `BidirectionalStream` -/
def BidirectionalStream.pollNext (r : Reader β) :
    Poll (Option (Except Error (List β))) × Reader β :=
  r.pollNext .bidirectionalStream

/-- `AsyncRead::poll_read` of `BidirectionalStream` -/
def BidirectionalStream.pollRead (r : Reader β) (output : ReadBuf β) :
    Poll (Except Error Unit) × Reader β × ReadBuf β :=
  r.readLoop .bidirectionalStream .pending output r.receiver.queue

end TokioCronet.Reading
