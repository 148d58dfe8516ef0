import Quiche.Connection.Effect
import Quiche.H3.Stream
import Quiche.Stream.SendBuf.Write

namespace Quiche.H3

structure Outlet where
  streamId : Nat
  send : Option SendBuf
  txCap : Nat
  initialMaxData : Varint
  mayOpen : Bool
  finished : Bool

namespace Outlet

variable {Result : Type}

/-- `get_or_create_stream` for a local stream. -/
def getOrCreateStream (outlet : Outlet) : Except Quiche.Error SendBuf :=
  match outlet.send with
  | some send => .ok send
  | none => if outlet.mayOpen then .ok (.new outlet.initialMaxData) else .error .streamLimit

/-- `stream_do_send`, without the queues of writable, blocked and flushable streams. -/
def streamDoSend (outlet : Outlet) (len : Nat) (fin : Bool)
    (writeFn : SendBuf → Nat → Bool → Option (SendBuf × Except Quiche.Error (Nat × Result))) :
    Option (Outlet × Except Quiche.Error Result) :=
  match outlet.getOrCreateStream with
  | .error error => some (outlet, .error error)
  | .ok send =>
    if outlet.txCap = 0 ∧ len > 0 then some ({ outlet with send := some send }, .error .done)
    else do
      let cap := min outlet.txCap len
      let (send, written) ← writeFn send cap (!decide (outlet.txCap < len) && fin)
      match written with
      | .error error => return ({ outlet with send := some send }, .error error)
      | .ok (sent, result) =>
        let txCap ← subChecked outlet.txCap sent
        let outlet := { outlet with send := some send, txCap }
        return (outlet, if sent = 0 ∧ cap > 0 then .error .done else .ok result)

def streamSend (outlet : Outlet) (buf : List UInt8) (fin : Bool) : Option (Outlet × Except Quiche.Error Nat) :=
  outlet.streamDoSend buf.length fin fun send cap fin => do
    let (send, written) ← send.write (buf.take cap) fin
    return (send, written.map fun sent => (sent, sent))

/-- `stream_send_zc`; also yields the part of `buf` that was not taken. -/
def streamSendZc (outlet : Outlet) (buf : List UInt8) (len : Option Nat) (fin : Bool) :
    Option (Outlet × Except Quiche.Error (Nat × Option (List UInt8))) :=
  outlet.streamDoSend buf.length fin fun send cap fin => do
    let (send, written) ← send.appendBuf buf (min (len.getD usizeMax) cap) fin
    return (send, written.map fun (sent, remaining) => (sent, (sent, remaining)))

def streamCapacity (outlet : Outlet) : Option (Except Quiche.Error Nat) :=
  match outlet.send with
  | none => some (.error (.invalidStreamState outlet.streamId))
  | some send => send.cap.map fun cap => cap.map (min outlet.txCap)

/-- `stream_writable`, without the marks that it leaves when there is not enough capacity. -/
def streamWritable (outlet : Outlet) (len : Nat) : Option (Except Quiche.Error Bool) :=
  outlet.streamCapacity.map fun cap => cap.map fun cap => decide (cap ≥ len)

def streamFinished (outlet : Outlet) : Bool := outlet.finished

end Outlet

section Transport

open StreamMap

variable {conn : Connection} {id : Nat} {Result : Type}

def outletOf (conn : Connection) (id : Nat) (initialMaxData : Varint) (mayOpen : Bool) : Outlet where
  streamId := id
  send := (conn.streams.get id).map Quiche.Stream.send
  txCap := conn.txCap
  initialMaxData := initialMaxData
  mayOpen := mayOpen
  finished := (conn.streams.get id).all fun stream => stream.recv.isFin

/-- What a call answers, and leaves of a stream and of the send capacity, apart from the limit that it was
blocked at. -/
def answer (txCap : Nat) (send : Option SendBuf) (result : Except Quiche.Error Result) :
    Nat × Option SendBuf × Except Quiche.Error Result := (txCap, send.map (·.updateBlockedAt none), result)

theorem answer_updateBlocked {map : StreamMap} (streams : StreamMap) (stream : Quiche.Stream) (isBlocked : Bool)
    (same : map.streams = (Connection.updateBlocked streams id stream isBlocked).streams) (txCap : Nat)
    (result : Except Quiche.Error Result) :
    answer txCap ((map.get id).map Quiche.Stream.send) result = answer txCap (some stream.send) result := by
  have present : map.get id = (Connection.updateBlocked streams id stream isBlocked).get id := by
    rw [StreamMap.get, StreamMap.get, same]
  have kept : ((map.get id).map Quiche.Stream.send).map (·.updateBlockedAt none) =
      some (stream.send.updateBlockedAt none) := by
    rw [present, Connection.updateBlocked]
    split
    · split <;> exact congrArg _ (congrArg _ (StreamMap.get_set ..))
    · exact congrArg _ (congrArg _ (StreamMap.get_set ..))
  exact Prod.ext rfl (Prod.ext kept rfl)

/-- Writing to a stream that is there answers on the outlet what it answers on the connection, and leaves the same. -/
theorem outlet_answers_connection {stream : Quiche.Stream} (found : conn.streams.get id = some stream)
    (sends : (!isBidi id && !isLocal id conn.isServer) = false) (credit : conn.txData ≤ conn.maxTxData)
    (initialMaxData : Varint) (mayOpen : Bool) (len : Nat) (fin : Bool)
    (writeFn : SendBuf → Nat → Bool → Option (SendBuf × Except Quiche.Error (Nat × Result))) :
    (conn.streamDoSend id len fin writeFn).map
        (fun (next, result) => answer next.txCap ((next.streams.get id).map Quiche.Stream.send) result) =
      ((outletOf conn id initialMaxData mayOpen).streamDoSend len fin writeFn).map
        fun (next, result) => answer next.txCap next.send result := by
  have opened : (outletOf conn id initialMaxData mayOpen).getOrCreateStream = .ok stream.send := by
    rw [Outlet.getOrCreateStream, outletOf, found]
    rfl
  have handed (blockedLimit : Option Nat) :
      { conn with blockedLimit : Connection }.getOrCreateStream id true = .ok (conn.streams, stream) := by
    rw [Connection.getOrCreateStream, StreamMap.getOrCreate, found]
  rw [Connection.streamDoSend, sends, Outlet.streamDoSend, opened, if_neg Bool.false_ne_true,
    subChecked_of_le credit]
  have cap : (outletOf conn id initialMaxData mayOpen).txCap = conn.txCap := rfl
  simp only [Option.bind_eq_bind, Option.bind_some, handed, cap]
  by_cases blocked : conn.txCap = 0 ∧ len > 0
  · rw [if_pos blocked, if_pos blocked]
    have kept : (if stream.isWritable then conn.streams.insertWritable stream.priorityKey else conn.streams).get id =
        some stream := by
      rw [← found]
      split <;> rfl
    exact congrArg some (congrArg (fun stream => answer conn.txCap (stream.map Quiche.Stream.send) _) kept)
  · rw [if_neg blocked, if_neg blocked]
    show Option.map _ (Option.bind (writeFn stream.send (min conn.txCap len) _) _) =
      Option.map _ (Option.bind (writeFn stream.send (min conn.txCap len) _) _)
    cases writeFn stream.send (min conn.txCap len) (!decide (conn.txCap < len) && fin) with
    | none => rfl
    | some written =>
      obtain ⟨send, written⟩ := written
      cases written with
      | error error =>
        have changed := StreamMap.get_set conn.streams id { stream with send }
        exact congrArg some (congrArg (fun stream => answer conn.txCap (stream.map Quiche.Stream.send) _) changed)
      | ok written =>
        obtain ⟨sent, result⟩ := written
        show Option.map _ (Option.bind (subChecked conn.txCap sent) _) =
          Option.map _ (Option.bind (subChecked conn.txCap sent) _)
        cases subChecked conn.txCap sent with
        | none => rfl
        | some txCap =>
          dsimp only [Option.bind_some]
          by_cases stuck : sent = 0 ∧ min conn.txCap len > 0
          · rw [if_pos stuck, if_pos stuck]
            refine congrArg some (answer_updateBlocked conn.streams { stream with send }
              (decide (sent < min conn.txCap len)) ?_ txCap _)
            simp only [apply_ite StreamMap.streams, insertFlushable_streams, removeWritable_streams,
              insertWritable_streams, ite_self]
          · rw [if_neg stuck, if_neg stuck]
            refine congrArg some (answer_updateBlocked conn.streams { stream with send }
              (decide (sent < min conn.txCap len)) ?_ txCap _)
            simp only [apply_ite StreamMap.streams, insertFlushable_streams, removeWritable_streams,
              insertWritable_streams, ite_self]

theorem outlet_answers_connection_first :
    let conn := Connection.new ⟨.default, none, 1, 100, 100, 3, false⟩ [1] ⟨[1], 1⟩ ⟨[2], 2⟩ false false
    let opened := { conn with streams := conn.streams.set 0 (.new 0 10 10 true true 10) }
    let writeFn := fun (send : SendBuf) cap fin => (send.write ([1, 2, 3].take cap) fin).map
      fun (send, written) => (send, written.map fun sent => (sent, sent))
    (opened.streamDoSend 0 3 true writeFn).map
        (fun (next, result) => answer next.txCap ((next.streams.get 0).map Quiche.Stream.send) result) =
      ((outletOf opened 0 ⟨10, by decide⟩ true).streamDoSend 3 true writeFn).map
        fun (next, result) => answer next.txCap next.send result :=
  outlet_answers_connection (get_set ..) rfl (Nat.le_refl 0) ⟨10, by decide⟩ true 3 true _

end Transport

/-- `b"GREASE is the word"` -/
def greasePayload : List UInt8 :=
  [0x47, 0x52, 0x45, 0x41, 0x53, 0x45, 0x20, 0x69, 0x73, 0x20, 0x74, 0x68, 0x65, 0x20, 0x77, 0x6f, 0x72, 0x64]

/-- `grease_value` for the number that was drawn. -/
def greaseValue (n : Fin 148764065110560899) : Nat := 31 * n + 33

/-- The two numbers that `send_grease_frames` draws. -/
structure Draw where
  first : Fin 148764065110560899
  second : Fin 148764065110560899

/-- What the calls on one request stream read and write. `requested` says that
`next_request_stream_id` lies behind the stream. The last two fields are not in the source:
the bytes that the transport took, and the body bytes that were reported as written. -/
structure Sender where
  isServer : Bool
  grease : Bool
  framesGreased : Bool
  peerGoawayId : Option Nat
  requested : Bool
  stream : Option Stream
  outlet : Outlet
  accepted : List UInt8
  body : List UInt8

namespace Sender

abbrev Call := EStateM Failure Sender

section Transport

variable {Value : Type}

/-- A call of the transport that takes the bytes `taken`. -/
def transport (call : Outlet → Option (Outlet × Except Quiche.Error Value)) (taken : Value → List UInt8) :
    Call Value := fun sender =>
  match call sender.outlet with
  | none => .error .panic sender
  | some (outlet, .error error) => .error (.error (.ofTransport error)) { sender with outlet }
  | some (outlet, .ok value) =>
    .ok value { sender with outlet, accepted := sender.accepted ++ taken value }

def streamSend (buf : List UInt8) (fin : Bool) : Call Nat :=
  transport (fun outlet => outlet.streamSend buf fin) fun sent => buf.take sent

def streamSendZc (buf : List UInt8) (len : Option Nat) (fin : Bool) : Call (Nat × Option (List UInt8)) :=
  transport (fun outlet => outlet.streamSendZc buf len fin) fun sent => buf.take sent.1

def streamCapacity : Call Nat :=
  transport (fun outlet => outlet.streamCapacity.map fun cap => (outlet, cap)) fun _ => []

def streamWritable (len : Nat) : Call Bool :=
  transport (fun outlet => (outlet.streamWritable len).map fun writable => (outlet, writable)) fun _ => []

/-- `self.streams.remove`, once everything was read from the stream. -/
def forget (sender : Sender) : Sender :=
  if sender.outlet.streamFinished then { sender with stream := none } else sender

/-- A stream that is refused by the transport is removed when it is finished. -/
def forgetOnError (call : Call Value) : Call Value := fun sender =>
  match call sender with
  | .error (.error error) sender => .error (.error error) sender.forget
  | result => result

/-- `stream_send` of nothing, which creates the stream. -/
def openStream : Call Unit := fun sender =>
  match streamSend [] false sender with
  | .ok _ sender => .ok () sender
  | .error (.error .done) sender => .error (.error .streamBlocked) { sender with stream := none }
  | .error failure sender => .error failure { sender with stream := none }

end Transport

section Checks

def refuseIf (condition : Bool) (error : Error) : Call Unit :=
  if condition then throw (.error error) else pure ()

def getStream : Call Stream := fun sender =>
  match sender.stream with
  | some stream => .ok stream sender
  | none => .error (.error .frameUnexpected) sender

def updateStream (change : Stream → Stream) : Call Unit :=
  modify fun sender => { sender with stream := sender.stream.map change }

def forgetIf (condition : Bool) : Call Unit := modify fun sender => if condition then sender.forget else sender

def varintLenOf (value : Nat) : Call Nat :=
  match varintLen value with
  | some len => pure len
  | none => throw .panic

def putAll : List Nat → Octets.Action Unit
  | [] => pure ()
  | value :: values => do
    Octets.putVarint value
    putAll values

/-- The integers as they are put into a buffer of `size` bytes. -/
def putVarints (size : Nat) (values : List Nat) : Call (List UInt8) :=
  match putAll values (.withSlice (List.replicate size 0)) with
  | .ok _ octets => pure octets.written
  | .error (.error _) _ => throw (.error .bufferTooShort)
  | .error .panic _ => throw .panic

end Checks

section Headers

def putGreaseFrames (greaseFrame1 greaseFrame2 : Nat) : Call Unit := do
  -- Empty GREASE frame.
  let _ ← streamSend (← putVarints 8 [greaseFrame1]) false
  let _ ← streamSend (← putVarints 8 [0]) false
  -- GREASE frame with payload.
  let _ ← streamSend (← putVarints 8 [greaseFrame2]) false
  let _ ← streamSend (← putVarints 8 [18]) false
  let _ ← streamSend greasePayload false

def sendGreaseFrames (draw : Draw) : Call Unit := do
  let streamCap ← forgetOnError streamCapacity
  let len1 ← varintLenOf (greaseValue draw.first)
  let len2 ← varintLenOf (greaseValue draw.second)
  -- Don't send GREASE if there is not enough capacity for it.
  if streamCap < len1 + 1 + len2 + 1 + greasePayload.length then pure ()
  else putGreaseFrames (greaseValue draw.first) (greaseValue draw.second)

def greaseOnce (draw : Draw) : Call Unit := do
  let sender ← get
  if !sender.framesGreased && sender.grease then do
    sendGreaseFrames draw
    modify fun sender => { sender with framesGreased := true }
  else pure ()

def sendHeaderBlock (headerBlock : List UInt8) (fin : Bool) : Call Unit := do
  let typeLen ← varintLenOf headersFrameTypeId
  let lengthLen ← varintLenOf headerBlock.length
  -- Headers need to be sent atomically, so make sure the stream has enough capacity.
  let writable ← forgetOnError (streamWritable (typeLen + lengthLen + headerBlock.length))
  refuseIf (!writable) .streamBlocked
  let header ← putVarints 10 [headersFrameTypeId, headerBlock.length]
  let _ ← streamSend header false
  -- Sending header block separately avoids unnecessary copy.
  let _ ← streamSend headerBlock fin
  updateStream Stream.initializeLocal
  forgetIf fin

variable {Header : Type} (encode : List Header → Option (List UInt8))

/-- `encode` is the QPACK encoder with an output of the estimated size. -/
def encodeHeaderBlock (headers : List Header) : Call (List UInt8) :=
  match encode headers with
  | some headerBlock => pure headerBlock
  | none => throw (.error .internalError)

def sendHeaders (headers : List Header) (fin : Bool) (draw : Draw) : Call Unit := do
  greaseOnce draw
  let headerBlock ← encodeHeaderBlock encode headers
  sendHeaderBlock headerBlock fin

def sendRequest (headers : List Header) (fin : Bool) (draw : Draw) : Call Unit := do
  let sender ← get
  -- If we received a GOAWAY from the peer, MUST NOT initiate new requests.
  refuseIf sender.peerGoawayId.isSome .frameUnexpected
  modify fun sender => { sender with stream := some (.new sender.outlet.streamId true) }
  openStream
  sendHeaders encode headers fin draw
  refuseIf (addU64 sender.outlet.streamId 4).isNone .idError
  modify fun sender => { sender with requested := true }

def sendResponse (headers : List Header) (fin : Bool) (draw : Draw) : Call Unit := do
  let stream ← getStream
  -- Only one initial HEADERS allowed.
  refuseIf stream.localInitialized .frameUnexpected
  sendHeaders encode headers fin draw

def sendAdditionalHeaders (headers : List Header) (isTrailerSection fin : Bool) (draw : Draw) : Call Unit := do
  let sender ← get
  -- Clients can only send trailer headers.
  refuseIf (!sender.isServer && !isTrailerSection) .frameUnexpected
  let stream ← getStream
  refuseIf (!stream.localInitialized || stream.trailersSent) .frameUnexpected
  sendHeaders encode headers fin draw
  if isTrailerSection then updateStream Stream.markTrailersSent else pure ()

end Headers

section Body

variable {Result : Type}

/-- The end of `do_send_body`, where the payload may have `room` bytes. `writeFn` gets the frame header,
the length of the payload and the FIN flag, and says how many bytes of the body it wrote. -/
def sendDataFrame (body : List UInt8) (fin : Bool) (room : Nat)
    (writeFn : List UInt8 → Nat → Bool → Call (Nat × Result)) : Call Result := do
  -- Cap the frame payload length to the stream's capacity.
  let bodyLen := min body.length room
  let fin := bodyLen == body.length && fin
  refuseIf (bodyLen == 0 && !fin) .done
  let header ← putVarints 10 [dataFrameTypeId, bodyLen]
  let (written, result) ← writeFn header bodyLen fin
  forgetIf (fin && written == body.length)
  return result

def doSendBody (body : List UInt8) (fin : Bool)
    (writeFn : List UInt8 → Nat → Bool → Call (Nat × Result)) : Call Result := do
  let sender ← get
  let len := body.length
  refuseIf (sender.outlet.streamId % 4 != 0) .frameUnexpected
  let stream ← getStream
  refuseIf (!stream.localInitialized || stream.trailersSent) .frameUnexpected
  -- Avoid sending 0-length DATA frames when the fin flag is false.
  refuseIf (len == 0 && !fin) .done
  let typeLen ← varintLenOf dataFrameTypeId
  let lengthLen ← varintLenOf len
  let streamCap ← forgetOnError streamCapacity
  -- Make sure there is enough capacity to send the DATA frame header.
  refuseIf (streamCap < typeLen + lengthLen) .done
  sendDataFrame body fin (streamCap - (typeLen + lengthLen)) writeFn

/-- The `write_fn` of `send_body`. -/
def writeBody (body header : List UInt8) (bodyLen : Nat) (fin : Bool) : Call (Nat × Nat) := do
  let _ ← streamSend header false
  let written ← streamSend (body.take bodyLen) fin
  return (written, written)

def sendBody (body : List UInt8) (fin : Bool) : Call Nat := doSendBody body fin (writeBody body)

def without (count : Nat) (extra : List UInt8) : Call Nat :=
  match subChecked count extra.length with
  | some rest => pure rest
  | none => throw .panic

/-- The `write_fn` of `send_body_zc`. `takesPrefix` is what `try_add_prefix` of the buffer answers; it
has put the header in front of the body then. Also yields the buffer that the caller is left with. -/
def writeBodyZc (body : List UInt8) (takesPrefix : Bool) (header : List UInt8) (bodyLen : Nat) (fin : Bool) :
    Call (Nat × Nat × List UInt8) :=
  if takesPrefix then do
    let (sent, rem) ← streamSendZc (header ++ body) (some (bodyLen + header.length)) fin
    let written ← without sent header
    return (written, written, rem.getD (header ++ body))
  else do
    let _ ← streamSend header false
    let (written, rem) ← streamSendZc body (some bodyLen) fin
    return (written, written, rem.getD body)

def sendBodyZc (body : List UInt8) (takesPrefix : Bool) (fin : Bool) : Call (Nat × List UInt8) :=
  doSendBody body fin (writeBodyZc body takesPrefix)

end Body

/-- The calls on the stream, and what changes between them: the peer's GOAWAY, and whatever the
transport learns. -/
inductive Op (Header : Type) where
  | sendRequest (headers : List Header) (fin : Bool) (draw : Draw)
  | sendResponse (headers : List Header) (fin : Bool) (draw : Draw)
  | sendAdditionalHeaders (headers : List Header) (isTrailerSection fin : Bool) (draw : Draw)
  | sendBody (body : List UInt8) (fin : Bool)
  | sendBodyZc (body : List UInt8) (takesPrefix fin : Bool)
  | goaway (id : Nat)
  | transport (txCap : Nat) (maxData : Varint) (mayOpen finished : Bool)

section Run

variable {Header Value : Type}

/-- A body call that reports how many bytes of `chunk` it wrote. -/
def reported (chunk : List UInt8) (count : Value → Nat) : EStateM.Result Failure Sender Value → Sender
  | .ok value sender => { sender with body := sender.body ++ chunk.take (count value) }
  | .error _ sender => sender

def learn (sender : Sender) (txCap : Nat) (maxData : Varint) (mayOpen finished : Bool) : Sender :=
  { sender with outlet := { sender.outlet with
      send := sender.outlet.send.map fun send => send.updateMaxData maxData
      txCap, mayOpen, finished } }

/-- A request that was sent leaves the stream to `send_request` no more. -/
def apply (encode : List Header → Option (List UInt8)) (sender : Sender) : Op Header → Sender
  | .sendRequest headers fin draw =>
    if sender.requested then sender else Data.after (sendRequest encode headers fin draw sender)
  | .sendResponse headers fin draw => Data.after (sendResponse encode headers fin draw sender)
  | .sendAdditionalHeaders headers isTrailerSection fin draw =>
    Data.after (sendAdditionalHeaders encode headers isTrailerSection fin draw sender)
  | .sendBody body fin => reported body id (sendBody body fin sender)
  | .sendBodyZc body takesPrefix fin => reported body Prod.fst (sendBodyZc body takesPrefix fin sender)
  | .goaway id => { sender with peerGoawayId := some id }
  | .transport txCap maxData mayOpen finished => sender.learn txCap maxData mayOpen finished

def machine (encode : List Header → Option (List UInt8)) : Data.Machine Sender (Op Header) :=
  ⟨fun sender op => some (sender.apply encode op)⟩

/-- Before the first call on the stream. `opened` is what a stream that the peer has opened may send. -/
def start (isServer grease framesGreased : Bool) (streamId : Nat) (stream : Option Stream)
    (opened : Option Varint) (initialMaxData : Varint) : Sender where
  isServer := isServer
  grease := grease
  framesGreased := framesGreased
  peerGoawayId := none
  requested := false
  stream := stream
  outlet :=
    { streamId := streamId
      send := opened.map fun limit : Varint => .new limit.val
      txCap := 0
      initialMaxData := initialMaxData
      mayOpen := false
      finished := false }
  accepted := []
  body := []

end Run

end Sender

end Quiche.H3
