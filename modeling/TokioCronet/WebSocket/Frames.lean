import TokioCronet.WebSocket.State

/-!
# From data frames to messages

The channel hands over a message frame by frame, and `AppendFrame` puts the payloads
together. It has no mark for the start of a message: the kind is taken from whatever frame
comes while the pending payload is empty.
-/

namespace TokioCronet.WebSocket

/-- `net::WebSocketFrameHeader::OpCode`, as far as data frames have one. -/
inductive OpCode where
  | continuation
  | text
  | binary
  deriving DecidableEq

/-- The arguments of `OnDataFrame`. -/
structure DataFrame where
  fin : Bool
  type : OpCode
  payload : Bytes
  deriving DecidableEq

/-- What `Cronet_WebSocketImpl` keeps of the frames, and the calls that it has made. -/
structure Inbound where
  pendingPayload : Bytes := []
  pendingBinary : Bool := false
  /-- Whether `on_message_` is set. -/
  onMessage : Bool := true
  /-- The calls of `NotifyMessage`. -/
  notified : List (Bool × Bytes) := []
  callbacks : List Callback := []
  deriving DecidableEq

/-! ## The program -/

/-- `Cronet_WebSocketImpl::NotifyMessage` -/
def Inbound.notifyMessage (s : Inbound) (binary : Bool) (payload : Bytes) : Inbound :=
  { s with notified := s.notified ++ [(binary, payload)],
           callbacks := s.callbacks ++
             if s.onMessage then [.message (some payload) binary] else [] }

/-- `Cronet_WebSocketImpl::AppendFrame` -/
def Inbound.appendFrame (s : Inbound) (fin : Bool) (type : OpCode) (payload : Bytes) : Inbound :=
  let pendingBinary := if s.pendingPayload = [] then type == .binary else s.pendingBinary
  let pendingPayload := s.pendingPayload ++ payload
  if fin then
    { s with pendingPayload := [], pendingBinary := pendingBinary }.notifyMessage pendingBinary
      pendingPayload
  else { s with pendingPayload := pendingPayload, pendingBinary := pendingBinary }

/-- `WebSocketEventHandler::OnDataFrame` -/
def Inbound.onDataFrame (s : Inbound) (frame : DataFrame) : Inbound :=
  s.appendFrame frame.fin frame.type frame.payload

/-- The frames that the channel forwards, one after the other. -/
def Inbound.run (s : Inbound) (frames : List DataFrame) : Inbound :=
  frames.foldl Inbound.onDataFrame s

/-! ## Messages -/

/-- A message and where it is cut: no frame is empty but the last one. -/
structure Message where
  binary : Bool
  /-- The payloads of the frames before the last one. -/
  parts : List Bytes
  last : Bytes
  parts_ne_nil : ∀ part ∈ parts, part ≠ []

/-- The bytes of a message. -/
def Message.payload (m : Message) : Bytes := m.parts.flatten ++ m.last

/-- The kind of its first frame. -/
def Message.type (m : Message) : OpCode := if m.binary then .binary else .text

/-- The first frame has the opcode of the message, the last one has `fin` set. -/
def Message.frames (m : Message) : List DataFrame :=
  match m.parts with
  | [] => [⟨true, m.type, m.last⟩]
  | part :: parts =>
    ⟨false, m.type, part⟩ :: parts.map (⟨false, .continuation, ·⟩) ++
      [⟨true, .continuation, m.last⟩]

@[simp] theorem Message.type_binary (m : Message) : (m.type == .binary) = m.binary := by
  unfold Message.type
  cases m.binary <;> rfl

variable {s : Inbound}

theorem run_append (frames more : List DataFrame) :
    s.run (frames ++ more) = (s.run frames).run more :=
  List.foldl_append

/-- Nothing is pending: the kind comes from this frame. -/
theorem appendFrame_first (type : OpCode) (payload : Bytes) (h : s.pendingPayload = []) :
    s.appendFrame false type payload =
      { s with pendingPayload := payload, pendingBinary := type == .binary } := by
  simp [Inbound.appendFrame, h]

/-- Something is pending: the kind stays. -/
theorem appendFrame_next (type : OpCode) (payload : Bytes) (h : s.pendingPayload ≠ []) :
    s.appendFrame false type payload =
      { s with pendingPayload := s.pendingPayload ++ payload } := by
  simp [Inbound.appendFrame, h]

theorem appendFrame_last (type : OpCode) (payload : Bytes) (h : s.pendingPayload ≠ []) :
    s.appendFrame true type payload =
      { s with pendingPayload := [] }.notifyMessage s.pendingBinary
        (s.pendingPayload ++ payload) := by
  simp [Inbound.appendFrame, h]

theorem appendFrame_only (type : OpCode) (payload : Bytes) (h : s.pendingPayload = []) :
    s.appendFrame true type payload =
      { s with pendingBinary := type == OpCode.binary }.notifyMessage (type == OpCode.binary)
        payload := by
  simp [Inbound.appendFrame, h]

/-- The frames in the middle of a message. -/
theorem run_continuations (parts : List Bytes) (h : s.pendingPayload ≠ []) :
    s.run (parts.map (⟨false, .continuation, ·⟩)) =
      { s with pendingPayload := s.pendingPayload ++ parts.flatten } := by
  induction parts generalizing s with
  | nil => simp [Inbound.run]
  | cons part parts ih =>
    have hnext := appendFrame_next .continuation part h
    have hne : s.pendingPayload ++ part ≠ [] := by simp [h]
    calc s.run ((part :: parts).map (⟨false, .continuation, ·⟩))
        = (s.appendFrame false .continuation part).run
            (parts.map (⟨false, .continuation, ·⟩)) := rfl
      _ = { s with pendingPayload := s.pendingPayload ++ part ++ parts.flatten } := by
          rw [hnext]
          exact ih hne
      _ = { s with pendingPayload := s.pendingPayload ++ (part :: parts).flatten } := by
          rw [List.flatten_cons, List.append_assoc]

/-- **A whole message makes one call.** -/
theorem run_message (m : Message) (h : s.pendingPayload = []) :
    s.run m.frames = { s with pendingBinary := m.binary }.notifyMessage m.binary m.payload := by
  obtain ⟨binary, parts, last, hparts⟩ := m
  cases parts with
  | nil =>
    have honly := appendFrame_only (Message.type ⟨binary, [], last, hparts⟩) last h
    rw [Message.type_binary] at honly
    exact honly
  | cons part parts =>
    have hpart : part ≠ [] := hparts part List.mem_cons_self
    have hfirst := appendFrame_first (Message.type ⟨binary, part :: parts, last, hparts⟩) part h
    rw [Message.type_binary] at hfirst
    let first : Inbound := { s with pendingPayload := part, pendingBinary := binary }
    let middle : Inbound := { first with pendingPayload := part ++ parts.flatten }
    have hmiddle : middle.pendingPayload ≠ [] := by simp [middle, hpart]
    calc s.run (Message.frames ⟨binary, part :: parts, last, hparts⟩)
        = (s.appendFrame false (Message.type ⟨binary, part :: parts, last, hparts⟩) part).run
            (parts.map (⟨false, .continuation, ·⟩) ++ [⟨true, .continuation, last⟩]) := rfl
      _ = (first.run (parts.map (⟨false, .continuation, ·⟩))).run
            [⟨true, .continuation, last⟩] := by
          rw [hfirst, run_append]
      _ = middle.appendFrame true .continuation last := by
          rw [run_continuations parts hpart]
          rfl
      _ = { middle with pendingPayload := [] }.notifyMessage binary
            (part ++ parts.flatten ++ last) := appendFrame_last .continuation last hmiddle
      _ = _ := by
          rw [Message.payload, List.flatten_cons]
          simp only [middle, first, Inbound.notifyMessage, h]

/-- What the callback for a message gets. -/
def Message.callback (m : Message) : Callback := .message (some m.payload) m.binary

theorem run_messages (messages : List Message) (h : s.pendingPayload = []) :
    (s.run (messages.flatMap Message.frames)).notified =
        s.notified ++ messages.map (fun m => (m.binary, m.payload)) ∧
      (s.run (messages.flatMap Message.frames)).callbacks =
        s.callbacks ++ (if s.onMessage then messages.map Message.callback else []) ∧
      (s.run (messages.flatMap Message.frames)).pendingPayload = [] := by
  induction messages generalizing s with
  | nil => simp [Inbound.run, h]
  | cons m messages ih =>
    rw [List.flatMap_cons, run_append, run_message m h]
    obtain ⟨hnotified, hcallbacks, hpending⟩ :=
      ih (s := { s with pendingBinary := m.binary }.notifyMessage m.binary m.payload) h
    refine ⟨?_, ?_, hpending⟩
    · rw [hnotified]
      simp [Inbound.notifyMessage]
    · rw [hcallbacks]
      cases s.onMessage <;> simp [Inbound.notifyMessage, Message.callback]

/-- **Every message arrives whole, once and in order**, with its own kind, however it was cut,
and leaves nothing behind. -/
theorem messages_notified (onMessage : Bool) (messages : List Message) :
    let s := Inbound.run { onMessage := onMessage } (messages.flatMap Message.frames)
    s.notified = messages.map (fun m => (m.binary, m.payload)) ∧
      s.callbacks = (if onMessage then messages.map Message.callback else []) ∧
      s.pendingPayload = [] := by
  obtain ⟨hnotified, hcallbacks, hpending⟩ :=
    run_messages (s := { onMessage := onMessage }) messages rfl
  exact ⟨by simpa using hnotified, by simpa using hcallbacks, hpending⟩

/-- A binary message with an empty last frame, and an empty text message. -/
example : (Inbound.run {} [⟨false, .binary, [1, 2]⟩, ⟨true, .continuation, []⟩,
    ⟨true, .text, []⟩]).notified = [(true, [1, 2]), (false, [])] := by decide

end TokioCronet.WebSocket
