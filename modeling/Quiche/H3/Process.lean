import Quiche.H3.Qpack
import Quiche.H3.Stream

namespace Quiche.H3

inductive Event where
  | headers (list : List Header) (moreFrames : Bool)
  | goAway
  | priorityUpdate

structure Inquiry where
  dgramMaxWritableLen : Option Nat
  streamFinished : Nat → Bool
  maxStreamsBidi : Nat
  isCollected : Nat → Bool

/-- The part of an HTTP/3 connection that processes frames, with the error that the transport
was closed with. A transport that is closed or draining for another reason refuses a `close`
alike, and counts as closed with `done`. -/
structure Processor where
  isServer : Bool
  maxFieldSectionSize : Option Nat
  streams : Nat → Option Stream
  peerSettings : Settings
  peerGoawayId : Option Nat
  maxPushId : Nat
  localError : Option Error

namespace Processor

abbrev Call := EStateM Failure Processor

variable {Value : Type}

/-- `conn.close(true, error.to_wire(), ..)?` -/
def close (error : Error) : Call Unit := fun processor =>
  match processor.localError with
  | some _ => .error (.error .done) processor
  | none => .ok () { processor with localError := some error }

/-- Closes the connection with `wire` and returns `error`. -/
def refuseWith (wire error : Error) : Call Value := do
  close wire
  throw (.error error)

def refuse (error : Error) : Call Value := refuseWith error error

def done : Call Value := throw (.error .done)

def putStream (streamId : Nat) (stream : Stream) (processor : Processor) : Processor :=
  { processor with streams := Function.update processor.streams streamId (some stream) }

def processSettings (inquiry : Inquiry) (settings : Settings) : Call (Nat × Event) := do
  modify fun processor => { processor with peerSettings := settings }
  -- The peer MUST have also enabled DATAGRAM with a TP.
  if settings.h3Datagram = some 1 ∧ inquiry.dgramMaxWritableLen = none then refuse .settingsError
  else done

def countHeaders (streamId : Nat) : Call Unit := do
  let processor ← get
  match processor.streams streamId with
  | none => pure ()
  | some stream =>
    if processor.isServer && stream.headersReceivedCount == 2 then refuse .frameUnexpected
    else set (processor.putStream streamId stream.incrementHeadersReceived)

def processHeaders (inquiry : Inquiry) (streamId : Nat) (headerBlock : List UInt8) : Call (Nat × Event) := do
  countHeaders streamId
  -- "Infinite" is the default value where the application configured none.
  match Qpack.decode headerBlock ((← get).maxFieldSectionSize.getD (2 ^ 64 - 1)) with
  | .ok headers => return (streamId, .headers headers (!inquiry.streamFinished streamId))
  | .error (.error .headerListTooLarge) => refuse .excessiveLoad
  | .error (.error _) => refuse .qpackDecompressionFailed
  | .error .panic => throw .panic

def processGoAway (id : Nat) : Call (Nat × Event) := do
  let processor ← get
  if !processor.isServer && id % 4 != 0 then refuseWith .frameUnexpected .idError
  else if processor.peerGoawayId.any (id > ·) then refuse .idError
  else do
    set { processor with peerGoawayId := some id }
    return (id, .goAway)

def processMaxPushId (pushId : Nat) : Call (Nat × Event) := do
  let processor ← get
  if !processor.isServer then refuse .frameUnexpected
  else if pushId < processor.maxPushId then refuse .idError
  else do
    set { processor with maxPushId := pushId }
    done

def processPushPromise (streamId : Nat) : Call (Nat × Event) := do
  if (← get).isServer then refuse .frameUnexpected
  else if streamId % 4 ≠ 0 then refuse .frameUnexpected
  else done

def processPriorityUpdateRequest (inquiry : Inquiry) (elementId : Nat) (value : List UInt8) : Call (Nat × Event) := do
  let processor ← get
  if !processor.isServer then refuse .frameUnexpected
  else if elementId % 4 ≠ 0 then refuse .frameUnexpected
  else if elementId > inquiry.maxStreamsBidi * 4 then refuse .idError
  -- An update for a stream that was collected is discarded.
  else if inquiry.isCollected elementId then done
  else do
    let stream := (processor.streams elementId).getD (.new elementId false)
    set (processor.putStream elementId { stream with lastPriorityUpdate := some value })
    -- The event is only triggered where no update was stored.
    if stream.lastPriorityUpdate.isNone then return (elementId, .priorityUpdate)
    else done

def processPriorityUpdatePush (elementId : Nat) : Call (Nat × Event) := do
  if !(← get).isServer then refuse .frameUnexpected
  else if elementId % 3 ≠ 0 then refuse .frameUnexpected
  else done

/-- `Err(Done)` says that there is no event. -/
def processFrame (inquiry : Inquiry) (streamId : Nat) : Frame → Call (Nat × Event)
  | .settings settings => processSettings inquiry settings
  | .headers headerBlock => processHeaders inquiry streamId headerBlock
  -- The Data event is returned separately.
  | .data _ => done
  | .goAway id => processGoAway id
  | .maxPushId pushId => processMaxPushId pushId
  | .pushPromise _ _ => processPushPromise streamId
  | .cancelPush _ => done
  | .priorityUpdateRequest elementId value => processPriorityUpdateRequest inquiry elementId value
  | .priorityUpdatePush elementId _ => processPriorityUpdatePush elementId
  | .unknown _ _ => done

section Readable

def onStream (streamId : Nat) (call : Stream.Action Value) : Call Value := fun processor =>
  match processor.streams streamId with
  | none => .error (.error .done) processor
  | some stream =>
    match call stream with
    | .ok value stream => .ok value (processor.putStream streamId stream)
    | .error failure stream => .error failure (processor.putStream streamId stream)

def closing (call : Call Value) : Call Value := fun processor =>
  match call processor with
  | .error (.error error) processor => refuse error processor
  | result => result

def fill (payload : List UInt8) : Stream.Action Unit := modify fun stream => { stream with
    stateBuf := stream.stateBuf.take stream.stateOff ++ payload ++ stream.stateBuf.drop (stream.stateOff + payload.length)
    stateOff := stream.stateOff + payload.length }

/-- `try_consume_data`, once the application has taken the rest of the payload. -/
def consumeData : Stream.Action Unit := do
  modify fun stream => { stream with stateOff := stream.stateLen }
  Stream.stateTransition .frameType 1 true

def unlessDone (call : Call (Nat × Event)) : Call (Option (Nat × Event)) := fun processor =>
  match call processor with
  | .ok event processor => .ok (some event) processor
  | .error (.error .done) processor => .ok none processor
  | .error failure processor => .error failure processor

/-- The turns of `process_readable_stream` on the rest of a frame whose type was read. -/
def receivePayload (inquiry : Inquiry) (streamId ty : Nat) (payload : List UInt8) : Call (Option (Nat × Event)) := do
  closing (onStream streamId (Stream.setFramePayloadLen payload.length))
  if ty = dataFrameTypeId then do
    onStream streamId consumeData
    return none
  else do
    onStream streamId (fill payload)
    let (frame, _) ← closing (onStream streamId Stream.tryConsumeFrame)
    unlessDone (processFrame inquiry streamId frame)

/-- All turns on one frame of a stream, whose bytes have all arrived. -/
def receiveFrame (inquiry : Inquiry) (streamId ty : Nat) (payload : List UInt8) : Call (Option (Nat × Event)) := do
  closing (onStream streamId (Stream.setFrameType ty))
  receivePayload inquiry streamId ty payload

def receiveFrames (inquiry : Inquiry) (streamId : Nat) : List (Nat × List UInt8) → Call Unit
  | [] => pure ()
  | (ty, payload) :: frames => do
    let _ ← receiveFrame inquiry streamId ty payload
    receiveFrames inquiry streamId frames

end Readable

end Processor

end Quiche.H3
