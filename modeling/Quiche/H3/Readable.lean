import Quiche.H3.Process

namespace Quiche.H3

def Error.toWire : Error → Nat
  | .done => 0x100
  | .internalError => 0x102
  | .streamCreationError => 0x103
  | .closedCriticalStream => 0x104
  | .frameUnexpected => 0x105
  | .frameError => 0x106
  | .excessiveLoad => 0x107
  | .idError => 0x108
  | .missingSettings => 0x10a
  | .qpackDecompressionFailed => 0x200
  | .bufferTooShort => 0x999
  | .transportError _ | .streamBlocked => 0xFF
  | .settingsError => 0x109
  | .requestRejected => 0x10b
  | .requestCancelled => 0x10c
  | .requestIncomplete => 0x10d
  | .messageError => 0x10e
  | .connectError => 0x10f
  | .versionFallback => 0x110

structure Transport (Conn : Type) where
  streamRecv : Nat → Nat → Conn → Except Quiche.Error (List UInt8 × Bool) × Conn
  /-- `stream_shutdown(.., Shutdown::Read, ..)` -/
  stopReading : Nat → Nat → Conn → Except Quiche.Error Unit × Conn
  inquiry : Conn → Inquiry

structure QpackStreams where
  encoderStreamId : Option Nat
  encoderStreamBytes : Nat
  decoderStreamId : Option Nat
  decoderStreamBytes : Nat
deriving DecidableEq, Repr

/-- An HTTP/3 connection as it reads the streams of the transport under it. -/
structure Reader (Conn : Type) where
  processor : Processor
  peerControlStreamId : Option Nat
  peerQpackStreams : QpackStreams
  conn : Conn

/-- The events of `process_readable_stream`: those that a frame raises, and `Event::Data`. -/
inductive Readable where
  | frame (event : Event)
  | data

/-- How one turn of the loop of `process_readable_stream` ends. -/
inductive Turn where
  | again
  | leave
  | event (streamId : Nat) (event : Readable)

namespace Reader

variable {Conn : Type}

abbrev Call (Conn : Type) := EStateM Failure (Reader Conn)

variable {Value : Type} (transport : Transport Conn)

def process (call : Processor.Call Value) : Call Conn Value := fun reader =>
  match call reader.processor with
  | .ok value processor => .ok value { reader with processor }
  | .error failure processor => .error failure { reader with processor }

def streamRecv (streamId len : Nat) : Call Conn (Except Quiche.Error (List UInt8 × Bool)) := fun reader =>
  let (received, conn) := transport.streamRecv streamId len reader.conn
  .ok received { reader with conn }

def stopReading (streamId code : Nat) : Call Conn (Except Quiche.Error Unit) := fun reader =>
  let (stopped, conn) := transport.stopReading streamId code reader.conn
  .ok stopped { reader with conn }

def streamFinished (streamId : Nat) : Call Conn Bool := fun reader =>
  .ok ((transport.inquiry reader.conn).streamFinished streamId) reader

/-- An error of the transport, as the HTTP/3 layer returns it. -/
def transportFailed (error : Quiche.Error) : Call Conn Value := throw (.error (.ofTransport error))

def closeConnCriticalStream : Call Conn Unit := process (Processor.refuse .closedCriticalStream)

def closeConnIfCriticalStreamFinished (streamId : Nat) : Call Conn Unit := do
  if ← streamFinished transport streamId then closeConnCriticalStream else pure ()

def borrowed (streamId : Nat) : Call Conn Stream := process (Processor.onStream streamId get)

def resetDataEvent (streamId : Nat) : Call Conn Unit :=
  process (Processor.onStream streamId (modify Stream.resetDataEvent))

def received (streamId : Nat) (bytes : List UInt8) : Call Conn Unit := do
  process (Processor.onStream streamId (Processor.fill bytes))
  if (← borrowed streamId).stateBufferComplete then pure ()
  else do
    resetDataEvent streamId
    throw (.error .done)

def tryFillBuffer (streamId : Nat) : Call Conn Unit := do
  let stream ← borrowed streamId
  -- If no bytes are required to be read, return early.
  if stream.stateBufferComplete then pure ()
  else if stream.stateLen < stream.stateOff ∨ stream.stateBuf.length < stream.stateLen then throw .panic
  else
    match ← streamRecv transport stream.id (stream.stateLen - stream.stateOff) with
    | .ok (bytes, fin) => do
      if fin && stream.ty.any StreamType.isCritical then closeConnCriticalStream else pure ()
      received streamId bytes
    | .error (.streamReset code) => do
      if stream.ty.any StreamType.isCritical then closeConnCriticalStream else pure ()
      transportFailed (.streamReset code)
    | .error error => do
      if error = .done then resetDataEvent streamId else pure ()
      transportFailed error

/-- `none` is an error of the call. -/
def tryConsumeVarint (streamId : Nat) : Call Conn (Option Nat) := fun reader =>
  match process (Processor.onStream streamId Stream.tryConsumeVarint) reader with
  | .ok varint reader => .ok (some varint) reader
  | .error (.error _) reader => .ok none reader
  | .error .panic reader => .error .panic reader

def onVarint (streamId : Nat) (step : Nat → Call Conn Unit) : Call Conn Turn := do
  tryFillBuffer transport streamId
  match ← tryConsumeVarint streamId with
  | none => return .again
  | some varint => do
    step varint
    return .again

def openControl (streamId : Nat) : Call Conn Unit := do
  -- Only one control stream allowed.
  if (← get).peerControlStreamId.isSome then process (Processor.refuse .streamCreationError)
  else do
    closeConnIfCriticalStreamFinished transport streamId
    modify fun reader => { reader with peerControlStreamId := some streamId }

def openEncoder (streamId : Nat) : Call Conn Unit := do
  if (← get).peerQpackStreams.encoderStreamId.isSome then process (Processor.refuse .streamCreationError)
  else do
    closeConnIfCriticalStreamFinished transport streamId
    modify fun reader => { reader with
      peerQpackStreams := { reader.peerQpackStreams with encoderStreamId := some streamId } }

def openDecoder (streamId : Nat) : Call Conn Unit := do
  if (← get).peerQpackStreams.decoderStreamId.isSome then process (Processor.refuse .streamCreationError)
  else do
    closeConnIfCriticalStreamFinished transport streamId
    modify fun reader => { reader with
      peerQpackStreams := { reader.peerQpackStreams with decoderStreamId := some streamId } }

def opened (streamId : Nat) : StreamType → Call Conn Unit
  | .control => openControl transport streamId
  -- Only clients can receive push stream.
  | .push => do
    if (← get).processor.isServer then process (Processor.refuse .streamCreationError) else pure ()
  | .qpackEncoder => openEncoder transport streamId
  | .qpackDecoder => openDecoder transport streamId
  | .unknown => pure ()
  | .request => throw .panic

def readStreamType (streamId varint : Nat) : Call Conn Unit := do
  process (Processor.closing (Processor.onStream streamId (Stream.setTy (.deserialize varint))))
  opened transport streamId (.deserialize varint)

/-- `try_consume_frame`; an error other than `Done` closes the connection. -/
def consumeFrame (streamId : Nat) : Processor.Call (Frame × Nat) := fun processor =>
  match Processor.onStream streamId Stream.tryConsumeFrame processor with
  | .error (.error .done) processor => .error (.error .done) processor
  | .error (.error error) processor => Processor.refuse error processor
  | result => result

def nextFrame (streamId : Nat) : Call Conn Frame := do
  tryFillBuffer transport streamId
  let (frame, _) ← process (consumeFrame streamId)
  return frame

def readPayload (streamId : Nat) : Call Conn Turn := do
  let frame ← nextFrame transport streamId
  let inquiry := transport.inquiry (← get).conn
  match ← process (Processor.unlessDone (Processor.processFrame inquiry streamId frame)) with
  | some (id, event) => return .event id (.frame event)
  -- The frame may have been the last one.
  | none => do
    if ← streamFinished transport streamId then return .leave else return .again

def readData (streamId : Nat) : Call Conn Turn := do
  if ← process (Processor.onStream streamId Stream.tryTriggerDataEvent) then return .event streamId .data
  else return .leave

def countInstruction (ty : Option StreamType) (recv : Nat) : Call Conn Unit :=
  match ty with
  | some .qpackEncoder => modify fun reader => { reader with peerQpackStreams :=
      { reader.peerQpackStreams with encoderStreamBytes := reader.peerQpackStreams.encoderStreamBytes + recv } }
  | some .qpackDecoder => modify fun reader => { reader with peerQpackStreams :=
      { reader.peerQpackStreams with decoderStreamBytes := reader.peerQpackStreams.decoderStreamBytes + recv } }
  | _ => throw .panic

def readInstruction (streamId : Nat) : Call Conn Turn := do
  match ← streamRecv transport streamId 4096 with
  | .error error => transportFailed error
  | .ok (bytes, fin) => do
    countInstruction (← borrowed streamId).ty bytes.length
    if fin then closeConnCriticalStream else pure ()
    return .again

def drain (streamId : Nat) : Call Conn Turn := do
  match ← stopReading transport streamId 0x100 with
  | .error error => transportFailed error
  | .ok () => return .leave

/-- One turn of the loop of `process_readable_stream`. Events are only emitted when polling. -/
def turn (streamId : Nat) (polling : Bool) : State → Call Conn Turn
  | .streamType => onVarint transport streamId (readStreamType transport streamId)
  | .pushId => onVarint transport streamId fun varint =>
    process (Processor.closing (Processor.onStream streamId (Stream.setPushId varint)))
  | .frameType => onVarint transport streamId fun varint =>
    process (Processor.closing (Processor.onStream streamId (Stream.setFrameType varint)))
  | .framePayloadLen => onVarint transport streamId fun varint =>
    process (Processor.closing (Processor.onStream streamId (Stream.setFramePayloadLen varint)))
  | .framePayload => if polling then readPayload transport streamId else pure .leave
  | .data => if polling then readData streamId else pure .leave
  | .qpackInstruction => readInstruction transport streamId
  | .drain => drain transport streamId
  | .finished => pure .leave

def step (streamId : Nat) (polling : Bool) : Call Conn Turn := do
  turn transport streamId polling (← borrowed streamId).state

/-- At most `fuel` turns of the loop; `none` is a loop that has not ended. -/
def turns (streamId : Nat) (polling : Bool) :
    Nat → Reader Conn → Option (EStateM.Result Failure (Reader Conn) (Nat × Readable))
  | 0, _ => none
  | fuel + 1, reader =>
    match step transport streamId polling reader with
    | .ok .again next => turns streamId polling fuel next
    | .ok .leave next => some (.error (.error .done) next)
    | .ok (.event id event) next => some (.ok (id, event) next)
    | .error failure next => some (.error failure next)

/-- `self.streams.entry(stream_id).or_insert_with(..)` -/
def withStream (reader : Reader Conn) (streamId : Nat) : Reader Conn :=
  match reader.processor.streams streamId with
  | some _ => reader
  | none => { reader with processor := reader.processor.putStream streamId (.new streamId false) }

def processReadableStream (streamId : Nat) (polling : Bool) (fuel : Nat) (reader : Reader Conn) :
    Option (EStateM.Result Failure (Reader Conn) (Nat × Readable)) :=
  turns transport streamId polling fuel (reader.withStream streamId)

end Reader

end Quiche.H3
