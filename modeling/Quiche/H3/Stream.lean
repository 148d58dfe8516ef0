import Quiche.H3.Frame
import Quiche.Stream

namespace Quiche.H3

def http3ControlStreamTypeId : Nat := 0x0
def http3PushStreamTypeId : Nat := 0x1
def qpackEncoderStreamTypeId : Nat := 0x2
def qpackDecoderStreamTypeId : Nat := 0x3

def maxStateBufSize : Nat := 2 ^ 24 - 1

inductive StreamType where
  | control
  | request
  | push
  | qpackEncoder
  | qpackDecoder
  | unknown
deriving DecidableEq, Repr

def StreamType.deserialize (value : Nat) : StreamType :=
  if value = http3ControlStreamTypeId then .control
  else if value = http3PushStreamTypeId then .push
  else if value = qpackEncoderStreamTypeId then .qpackEncoder
  else if value = qpackDecoderStreamTypeId then .qpackDecoder
  else .unknown

def StreamType.isCritical : StreamType → Bool
  | .control | .qpackEncoder | .qpackDecoder => true
  | _ => false

inductive State where
  | streamType
  | frameType
  | framePayloadLen
  | framePayload
  | data
  | pushId
  | qpackInstruction
  | drain
  | finished
deriving DecidableEq, Repr

/-- An HTTP/3 stream, with the state buffer that holds what was read of the current state.
`lastPriorityUpdate` is the value of the last PRIORITY_UPDATE frame. -/
structure Stream where
  id : Nat
  ty : Option StreamType
  state : State
  stateBuf : List UInt8
  stateLen : Nat
  stateOff : Nat
  frameType : Option Nat
  isLocal : Bool
  remoteInitialized : Bool
  localInitialized : Bool
  dataEventTriggered : Bool
  lastPriorityUpdate : Option (List UInt8)
  headersReceivedCount : Nat
  dataReceived : Bool
  trailersSent : Bool
  trailersReceived : Bool
deriving DecidableEq, Repr

namespace Stream

def new (id : Nat) (isLocal : Bool) : Stream where
  id := id
  ty := if isBidi id then some .request else none
  state := if isBidi id then .frameType else .streamType
  stateBuf := List.replicate 16 0
  stateLen := 1
  stateOff := 0
  frameType := none
  isLocal := isLocal
  remoteInitialized := false
  localInitialized := false
  dataEventTriggered := false
  lastPriorityUpdate := none
  headersReceivedCount := 0
  dataReceived := false
  trailersSent := false
  trailersReceived := false

abbrev Action := EStateM Failure Stream

/-- `assert_eq!(self.state, state)` -/
def expect (state : State) : Action Unit := do
  if (← get).state = state then pure () else throw .panic

/-- `Vec::resize` with zeros. -/
def resize (buf : List UInt8) (len : Nat) : List UInt8 := buf.take len ++ List.replicate (len - buf.length) 0

def stateBufferComplete (stream : Stream) : Bool := stream.stateOff == stream.stateLen

def stateTransition (newState : State) (expectedLen : Nat) (resizes : Bool) : Action Unit := fun stream =>
  if resizes && decide (expectedLen > maxStateBufSize) then .error (.error .excessiveLoad) stream
  else
    .ok () { stream with
      stateBuf := if resizes then resize stream.stateBuf expectedLen else stream.stateBuf
      state := newState
      stateOff := 0
      stateLen := expectedLen }

def setTy (ty : StreamType) : Action Unit := do
  expect .streamType
  modify fun stream => { stream with ty := some ty }
  match ty with
  | .control | .request => stateTransition .frameType 1 true
  | .push => stateTransition .pushId 1 true
  | .qpackEncoder | .qpackDecoder => do
    modify fun stream => { stream with remoteInitialized := true }
    stateTransition .qpackInstruction 1 true
  | .unknown => stateTransition .drain 1 true

def setPushId (_id : Nat) : Action Unit := do
  expect .pushId
  stateTransition .frameType 1 true

def checkControlFrame (stream : Stream) (ty : Nat) : Except Error Stream :=
  if ty = settingsFrameTypeId ∧ !stream.remoteInitialized then .ok { stream with remoteInitialized := true }
  else if !stream.remoteInitialized then .error .missingSettings
  else if ty ∈ [settingsFrameTypeId, dataFrameTypeId, headersFrameTypeId, pushPromiseFrameTypeId] then
    .error .frameUnexpected
  else .ok stream

def checkRequestFrame (stream : Stream) (ty : Nat) : Except Error Stream :=
  if stream.isLocal then .ok stream
  else if ty = headersFrameTypeId then
    if !stream.remoteInitialized then .ok { stream with remoteInitialized := true }
    else if stream.trailersReceived then .error .frameUnexpected
    else .ok { stream with trailersReceived := stream.trailersReceived || stream.dataReceived }
  else if ty = dataFrameTypeId then
    if !stream.remoteInitialized || stream.trailersReceived then .error .frameUnexpected
    else .ok { stream with dataReceived := true }
  else if ty ∈ [cancelPushFrameTypeId, settingsFrameTypeId, goawayFrameTypeId, maxPushFrameTypeId,
      priorityUpdateFrameRequestTypeId, priorityUpdateFramePushTypeId] then .error .frameUnexpected
  -- All other frames can be ignored regardless of stream state.
  else .ok stream

def checkPushFrame (stream : Stream) (ty : Nat) : Except Error Stream :=
  if ty ∈ [cancelPushFrameTypeId, settingsFrameTypeId, pushPromiseFrameTypeId, goawayFrameTypeId,
      maxPushFrameTypeId] then .error .frameUnexpected
  else .ok stream

def checkFrame (stream : Stream) (ty : Nat) : Except Error Stream :=
  match stream.ty with
  | some .control => stream.checkControlFrame ty
  | some .request => stream.checkRequestFrame ty
  | some .push => stream.checkPushFrame ty
  | _ => .error .frameUnexpected

def setFrameType (ty : Nat) : Action Unit := do
  expect .frameType
  match (← get).checkFrame ty with
  | .error error => throw (.error error)
  | .ok stream =>
    set { stream with frameType := some ty }
    stateTransition .framePayloadLen 1 true

def neverEmpty : List Nat := [goawayFrameTypeId, pushPromiseFrameTypeId, cancelPushFrameTypeId, maxPushFrameTypeId]

def setFramePayloadLen (len : Nat) : Action Unit := do
  expect .framePayloadLen
  let stream ← get
  match stream.ty with
  | some .control | some .request | some .push =>
    if stream.frameType = some dataFrameTypeId then stateTransition .data len false
    else if stream.frameType.any (neverEmpty.contains ·) && len == 0 then throw (.error .frameError)
    else stateTransition .framePayload len true
  | _ => throw (.error .internalError)

def tryConsumeVarint : Action Nat := do
  let stream ← get
  if stream.stateOff = 1 then
    match stream.stateBuf with
    | [] => throw .panic
    | first :: _ =>
      let stateLen := varintParseLen first.toNat
      set { stream with stateLen, stateBuf := resize stream.stateBuf stateLen }
  let stream ← get
  if !stream.stateBufferComplete then throw (.error .done)
  else
    match Octets.getVarint (.withSlice stream.stateBuf) with
    | .ok value _ => pure value
    | .error (.error _) _ => throw (.error .bufferTooShort)
    | .error .panic _ => throw .panic

def resetDataEvent (stream : Stream) : Stream := { stream with dataEventTriggered := false }

def tryConsumeFrame : Action (Frame × Nat) := do
  -- Processing a frame other than DATA, so re-arm the Data event.
  modify resetDataEvent
  let stream ← get
  match stream.frameType with
  | none => throw .panic
  | some frameType =>
    match Frame.fromBytes frameType stream.stateLen stream.stateBuf with
    | .error failure => throw failure
    | .ok frame => do
      stateTransition .frameType 1 true
      pure (frame, stream.stateLen)

def tryTriggerDataEvent : Action Bool := do
  if (← get).dataEventTriggered then pure false
  else do
    modify fun stream => { stream with dataEventTriggered := true }
    pure true

def incrementHeadersReceived (stream : Stream) : Stream :=
  { stream with headersReceivedCount := min (stream.headersReceivedCount + 1) usizeMax }

def initializeLocal (stream : Stream) : Stream := { stream with localInitialized := true }

def markTrailersSent (stream : Stream) : Stream := { stream with trailersSent := true }

end Stream

end Quiche.H3
