import Quiche.Octets
import Quiche.Packet
import Quiche.RangeBuf
import Quiche.Ranges

namespace Quiche

open Data Octets

def maxStreamSize : Nat := 2 ^ 62

structure EcnCounts where
  ect0Count : Nat
  ect1Count : Nat
  ecnCeCount : Nat
deriving DecidableEq

inductive Frame where
  | padding (len : Nat)
  | ping (mtuProbe : Option Nat)
  | ack (ackDelay : Nat) (ranges : RangeSet) (ecnCounts : Option EcnCounts)
  | resetStream (streamId errorCode finalSize : Nat)
  | stopSending (streamId errorCode : Nat)
  | crypto (data : RangeBuf)
  | cryptoHeader (offset length : Nat)
  | newToken (token : List UInt8)
  | stream (streamId : Nat) (data : RangeBuf)
  | streamHeader (streamId offset length : Nat) (fin : Bool)
  | maxData (max : Nat)
  | maxStreamData (streamId max : Nat)
  | maxStreamsBidi (max : Nat)
  | maxStreamsUni (max : Nat)
  | dataBlocked (limit : Nat)
  | streamDataBlocked (streamId limit : Nat)
  | streamsBlockedBidi (limit : Nat)
  | streamsBlockedUni (limit : Nat)
  | newConnectionId (seqNum retirePriorTo : Nat) (connId : List UInt8) (resetToken : Vector UInt8 16)
  | retireConnectionId (seqNum : Nat)
  | pathChallenge (data : Vector UInt8 8)
  | pathResponse (data : Vector UInt8 8)
  | connectionClose (errorCode frameType : Nat) (reason : List UInt8)
  | applicationClose (errorCode : Nat) (reason : List UInt8)
  | handshakeDone
  | datagram (data : List UInt8)
  | datagramHeader (length : Nat)
deriving DecidableEq

namespace Frame

def invalidFrame {Value : Type} : Action Value := throw (.error .invalidFrame)

/-- An unsigned subtraction; it panics on underflow. -/
def subtract (left right : Nat) : Action Nat :=
  match subChecked left right with
  | some difference => pure difference
  | none => throw .panic

section Parse

/-- `get_bytes(size)?.buf().try_into()` -/
def getArray (size : Nat) : Action (Vector UInt8 size) := do
  let bytes ← getBytes size
  if length : bytes.length = size then pure ⟨bytes.toArray, length⟩ else tooShort

/-- `b.peek_u8() == Ok(0x00)` -/
def nextIsPadding (octets : Octets) : Bool :=
  match peekU8 octets with
  | .ok byte _ => byte == 0x00
  | .error _ _ => false

/-- The `while` loop over a run of padding; every turn takes a byte, so the capacity
bounds the turns. -/
def skipPadding : Nat → Nat → Action Nat
  | 0, len => pure len
  | fuel + 1, len => do
    if nextIsPadding (← get) then
      let _ ← getU8
      skipPadding fuel (len + 1)
    else pure len

/-- `ranges.insert(smallest_ack..largest_ack + 1)` -/
def insertAcked (ranges : RangeSet) (smallestAck largestAck : Nat) : Action RangeSet :=
  match ranges.insert smallestAck (largestAck + 1) with
  | some ranges => pure ranges
  | none => throw .panic

/-- The `for` loop of `parse_ack_frame`. -/
def getAckBlocks : Nat → Nat → RangeSet → Action RangeSet
  | 0, _, ranges => pure ranges
  | blockCount + 1, smallestAck, ranges => do
    let gap ← getVarint
    if smallestAck < 2 + gap then invalidFrame
    else
      let largestAck := (smallestAck - gap) - 2
      let ackBlock ← getVarint
      if largestAck < ackBlock then invalidFrame
      else
        let smallestAck := largestAck - ackBlock
        let ranges ← insertAcked ranges smallestAck largestAck
        getAckBlocks blockCount smallestAck ranges

def getEcnCounts (ty : Nat) : Action (Option EcnCounts) :=
  if ty &&& 0x01 ≠ 0 then do
    let ect0Count ← getVarint
    let ect1Count ← getVarint
    let ecnCeCount ← getVarint
    pure (some { ect0Count, ect1Count, ecnCeCount })
  else pure none

def parseAckFrame (ty : Nat) : Action Frame := do
  let largestAck ← getVarint
  let ackDelay ← getVarint
  let blockCount ← getVarint
  let ackBlock ← getVarint
  if largestAck < ackBlock then invalidFrame
  else
    let smallestAck := largestAck - ackBlock
    let ranges ← insertAcked .default smallestAck largestAck
    let ranges ← getAckBlocks blockCount smallestAck ranges
    let ecnCounts ← getEcnCounts ty
    pure (.ack ackDelay ranges ecnCounts)

def getOffset (ty : Nat) : Action Nat := if ty &&& 0x04 ≠ 0 then getVarint else pure 0

def getLength (ty flag : Nat) : Action Nat := if ty &&& flag ≠ 0 then getVarint else cap <$> get

def parseStreamFrame (ty : Nat) : Action Frame := do
  let streamId ← getVarint
  let offset ← getOffset ty
  let len ← getLength ty 0x02
  if offset + len ≥ maxStreamSize then invalidFrame
  else
    let fin := ty &&& 0x01 ≠ 0
    let data ← getBytes len
    pure (.stream streamId (.fromBytes data offset fin))

def parseDatagramFrame (ty : Nat) : Action Frame := do
  let len ← getLength ty 0x01
  let data ← getBytes len
  pure (.datagram data)

/-- The `match` of `from_bytes` on the type of the frame. -/
def parseFrame (frameType : Nat) : Action Frame :=
  match frameType with
  | 0x00 => do pure (.padding (← skipPadding (← get).cap 1))
  | 0x01 => pure (.ping none)
  | 0x02 | 0x03 => parseAckFrame frameType
  | 0x04 => do pure (.resetStream (← getVarint) (← getVarint) (← getVarint))
  | 0x05 => do pure (.stopSending (← getVarint) (← getVarint))
  | 0x06 => do
    let offset ← getVarint
    let data ← getBytesWithVarintLength
    pure (.crypto (.fromBytes data offset false))
  | 0x07 => do
    let len ← getVarint
    if len = 0 then invalidFrame else pure (.newToken (← getBytes len))
  | 0x08 | 0x09 | 0x0a | 0x0b | 0x0c | 0x0d | 0x0e | 0x0f => parseStreamFrame frameType
  | 0x10 => do pure (.maxData (← getVarint))
  | 0x11 => do pure (.maxStreamData (← getVarint) (← getVarint))
  | 0x12 => do pure (.maxStreamsBidi (← getVarint))
  | 0x13 => do pure (.maxStreamsUni (← getVarint))
  | 0x14 => do pure (.dataBlocked (← getVarint))
  | 0x15 => do pure (.streamDataBlocked (← getVarint) (← getVarint))
  | 0x16 => do pure (.streamsBlockedBidi (← getVarint))
  | 0x17 => do pure (.streamsBlockedUni (← getVarint))
  | 0x18 => do
    let seqNum ← getVarint
    let retirePriorTo ← getVarint
    let connIdLen ← getU8
    if 1 ≤ connIdLen ∧ connIdLen ≤ maxCidLen then
      pure (.newConnectionId seqNum retirePriorTo (← getBytes connIdLen) (← getArray 16))
    else invalidFrame
  | 0x19 => do pure (.retireConnectionId (← getVarint))
  | 0x1a => do pure (.pathChallenge (← getArray 8))
  | 0x1b => do pure (.pathResponse (← getArray 8))
  | 0x1c => do pure (.connectionClose (← getVarint) (← getVarint) (← getBytesWithVarintLength))
  | 0x1d => do pure (.applicationClose (← getVarint) (← getBytesWithVarintLength))
  | 0x1e => pure .handshakeDone
  | 0x30 | 0x31 => parseDatagramFrame frameType
  | _ => invalidFrame

def allowed : PacketType → Frame → Bool
  | _, .padding _ | _, .ping _ => true
  | .zeroRTT, .ack .. => false
  | .zeroRTT, .crypto _ => false
  | .zeroRTT, .handshakeDone => false
  | .zeroRTT, .newToken _ => false
  | .zeroRTT, .pathResponse _ => false
  | .zeroRTT, .retireConnectionId _ => false
  | .zeroRTT, .connectionClose .. => false
  | _, .ack .. => true
  | _, .crypto _ => true
  | _, .connectionClose .. => true
  | .short, _ => true
  | .zeroRTT, _ => true
  | _, _ => false

def fromBytes (pkt : PacketType) : Action Frame := do
  let frameType ← getVarint
  let frame ← parseFrame frameType
  if allowed pkt frame then pure frame else throw (.error .invalidPacket)

end Parse

section Encode

def putPadding : Nat → Action Unit
  | 0 => pure ()
  | left + 1 => do
    putVarint 0x00
    putPadding left

/-- The `for` loop over the blocks below the largest one, in descending order. -/
def putAckBlocks : List (Nat × Nat) → Nat → Action Unit
  | [], _ => pure ()
  | block :: rest, smallestAck => do
    let gap ← subtract (← subtract smallestAck block.2) 1
    let ackBlock ← subtract (← subtract block.2 1) block.1
    putVarint gap
    putVarint ackBlock
    putAckBlocks rest block.1

def putEcnCounts : Option EcnCounts → Action Unit
  | none => pure ()
  | some ecn => do
    putVarint ecn.ect0Count
    putVarint ecn.ect1Count
    putVarint ecn.ecnCeCount

/-- An empty set of ranges panics at the `unwrap`. -/
def putAckFrame (ackDelay : Nat) (ranges : RangeSet) (ecnCounts : Option EcnCounts) : Action Unit := do
  putVarint (if ecnCounts.isNone then 0x02 else 0x03)
  match ranges.iter.reverse with
  | [] => throw .panic
  | first :: rest =>
    let largestAck ← subtract first.2 1
    let ackBlock ← subtract largestAck first.1
    putVarint largestAck
    putVarint ackDelay
    putVarint rest.length
    putVarint ackBlock
    putAckBlocks rest first.1
    putEcnCounts ecnCounts

def encodeCryptoHeader (offset length : Nat) : Action Unit := do
  putVarint 0x06
  putVarint offset
  putVarintWithLen length 2

def encodeStreamHeader (streamId offset length : Nat) (fin : Bool) : Action Unit := do
  let ty := 0x08 ||| 0x04 ||| 0x02
  putVarint (if fin then ty ||| 0x01 else ty)
  putVarint streamId
  putVarint offset
  putVarintWithLen length 2

def encodeDgramHeader (length : Nat) : Action Unit := do
  putVarint (0x30 ||| 0x01)
  putVarintWithLen length 2

/-- The `match` of `to_bytes`. -/
def encodeFrame : Frame → Action Unit
  | .padding len => putPadding len
  | .ping _ => putVarint 0x01
  | .ack ackDelay ranges ecnCounts => putAckFrame ackDelay ranges ecnCounts
  | .resetStream streamId errorCode finalSize => do
    putVarint 0x04
    putVarint streamId
    putVarint errorCode
    putVarint finalSize
  | .stopSending streamId errorCode => do
    putVarint 0x05
    putVarint streamId
    putVarint errorCode
  | .crypto data => do
    encodeCryptoHeader data.off data.len
    putBytes data.bytes
  | .cryptoHeader .. => pure ()
  | .newToken token => do
    putVarint 0x07
    putVarint token.length
    putBytes token
  | .stream streamId data => do
    encodeStreamHeader streamId data.off data.len data.fin
    putBytes data.bytes
  | .streamHeader .. => pure ()
  | .maxData max => do
    putVarint 0x10
    putVarint max
  | .maxStreamData streamId max => do
    putVarint 0x11
    putVarint streamId
    putVarint max
  | .maxStreamsBidi max => do
    putVarint 0x12
    putVarint max
  | .maxStreamsUni max => do
    putVarint 0x13
    putVarint max
  | .dataBlocked limit => do
    putVarint 0x14
    putVarint limit
  | .streamDataBlocked streamId limit => do
    putVarint 0x15
    putVarint streamId
    putVarint limit
  | .streamsBlockedBidi limit => do
    putVarint 0x16
    putVarint limit
  | .streamsBlockedUni limit => do
    putVarint 0x17
    putVarint limit
  | .newConnectionId seqNum retirePriorTo connId resetToken => do
    putVarint 0x18
    putVarint seqNum
    putVarint retirePriorTo
    putU8 connId.length
    putBytes connId
    putBytes resetToken.toList
  | .retireConnectionId seqNum => do
    putVarint 0x19
    putVarint seqNum
  | .pathChallenge data => do
    putVarint 0x1a
    putBytes data.toList
  | .pathResponse data => do
    putVarint 0x1b
    putBytes data.toList
  | .connectionClose errorCode frameType reason => do
    putVarint 0x1c
    putVarint errorCode
    putVarint frameType
    putVarint reason.length
    putBytes reason
  | .applicationClose errorCode reason => do
    putVarint 0x1d
    putVarint errorCode
    putVarint reason.length
    putBytes reason
  | .handshakeDone => putVarint 0x1e
  | .datagram data => do
    encodeDgramHeader data.length
    putBytes data
  | .datagramHeader _ => pure ()

def toBytes (frame : Frame) : Action Nat := do
  let before := (← get).cap
  encodeFrame frame
  pure (before - (← get).cap)

end Encode

section Length

/-- The length of variable-length integers in a row; `none` is the `unreachable!` for one
that has none. -/
def varintsLen : List Nat → Option Nat
  | [] => some 0
  | value :: rest => do return (← varintLen value) + (← varintsLen rest)

/-- The blocks below the largest one, in descending order; `none` is an underflow, too. -/
def ackBlocksLen : List (Nat × Nat) → Nat → Option Nat
  | [], _ => some 0
  | block :: rest, smallestAck => do
    let gap ← subChecked (← subChecked smallestAck block.2) 1
    let ackBlock ← subChecked (← subChecked block.2 1) block.1
    return (← varintsLen [gap, ackBlock]) + (← ackBlocksLen rest block.1)

def wireLen : Frame → Option Nat
  | .padding len => some len
  | .ping _ => some 1
  | .ack ackDelay ranges ecnCounts =>
    match ranges.iter.reverse with
    | [] => none
    | first :: rest => do
      let largestAck ← subChecked first.2 1
      let ackBlock ← subChecked largestAck first.1
      let len := 1 + (← varintsLen [largestAck, ackDelay, rest.length, ackBlock])
      let len := len + (← ackBlocksLen rest first.1)
      match ecnCounts with
      | none => return len
      | some ecn => return len + (← varintsLen [ecn.ect0Count, ecn.ect1Count, ecn.ecnCeCount])
  | .resetStream streamId errorCode finalSize =>
    (varintsLen [streamId, errorCode, finalSize]).map (1 + ·)
  | .stopSending streamId errorCode => (varintsLen [streamId, errorCode]).map (1 + ·)
  | .crypto data => (varintsLen [data.off]).map (1 + · + 2 + data.len)
  | .cryptoHeader offset length => (varintsLen [offset]).map (1 + · + 2 + length)
  | .newToken token => (varintsLen [token.length]).map (1 + · + token.length)
  | .stream streamId data => (varintsLen [streamId, data.off]).map (1 + · + 2 + data.len)
  | .streamHeader streamId offset length _ => (varintsLen [streamId, offset]).map (1 + · + 2 + length)
  | .maxData max => (varintsLen [max]).map (1 + ·)
  | .maxStreamData streamId max => (varintsLen [streamId, max]).map (1 + ·)
  | .maxStreamsBidi max => (varintsLen [max]).map (1 + ·)
  | .maxStreamsUni max => (varintsLen [max]).map (1 + ·)
  | .dataBlocked limit => (varintsLen [limit]).map (1 + ·)
  | .streamDataBlocked streamId limit => (varintsLen [streamId, limit]).map (1 + ·)
  | .streamsBlockedBidi limit => (varintsLen [limit]).map (1 + ·)
  | .streamsBlockedUni limit => (varintsLen [limit]).map (1 + ·)
  | .newConnectionId seqNum retirePriorTo connId resetToken =>
    (varintsLen [seqNum, retirePriorTo]).map (1 + · + 1 + connId.length + resetToken.size)
  | .retireConnectionId seqNum => (varintsLen [seqNum]).map (1 + ·)
  | .pathChallenge _ => some (1 + 8)
  | .pathResponse _ => some (1 + 8)
  | .connectionClose errorCode frameType reason =>
    (varintsLen [errorCode, frameType, reason.length]).map (1 + · + reason.length)
  | .applicationClose errorCode reason =>
    (varintsLen [errorCode, reason.length]).map (1 + · + reason.length)
  | .handshakeDone => some 1
  | .datagram data => some (1 + 2 + data.length)
  | .datagramHeader length => some (1 + 2 + length)

end Length

end Frame

end Quiche
