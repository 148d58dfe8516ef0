import Quiche.Frame.Ack

namespace Quiche.Frame

open Data Octets

variable {frame : Frame}

def type : Frame → Nat
  | .padding _ => 0x00
  | .ping _ => 0x01
  | .ack _ _ ecnCounts => ackType ecnCounts
  | .resetStream .. => 0x04
  | .stopSending .. => 0x05
  | .crypto _ | .cryptoHeader .. => 0x06
  | .newToken _ => 0x07
  | .stream _ data => if data.fin then 0x0f else 0x0e
  | .streamHeader _ _ _ fin => if fin then 0x0f else 0x0e
  | .maxData _ => 0x10
  | .maxStreamData .. => 0x11
  | .maxStreamsBidi _ => 0x12
  | .maxStreamsUni _ => 0x13
  | .dataBlocked _ => 0x14
  | .streamDataBlocked .. => 0x15
  | .streamsBlockedBidi _ => 0x16
  | .streamsBlockedUni _ => 0x17
  | .newConnectionId .. => 0x18
  | .retireConnectionId _ => 0x19
  | .pathChallenge _ => 0x1a
  | .pathResponse _ => 0x1b
  | .connectionClose .. => 0x1c
  | .applicationClose .. => 0x1d
  | .handshakeDone => 0x1e
  | .datagram _ | .datagramHeader _ => 0x31

def payloadLength (length : Nat) : List UInt8 := varintBytes length 2 1

/-- What follows the type. -/
def payload : Frame → List UInt8
  | .padding len => List.replicate (len - 1) 0
  | .ping _ | .handshakeDone | .cryptoHeader .. | .streamHeader .. | .datagramHeader _ => []
  | .ack ackDelay ranges ecnCounts => ackPayload ackDelay ranges.iter ecnCounts
  | .resetStream streamId errorCode finalSize =>
    varint streamId ++ (varint errorCode ++ varint finalSize)
  | .stopSending first second | .maxStreamData first second | .streamDataBlocked first second =>
    varint first ++ varint second
  | .crypto data => varint data.off ++ (payloadLength data.len ++ data.bytes)
  | .newToken token => varint token.length ++ token
  | .stream streamId data =>
    varint streamId ++ (varint data.off ++ (payloadLength data.len ++ data.bytes))
  | .maxData value | .maxStreamsBidi value | .maxStreamsUni value | .dataBlocked value
  | .streamsBlockedBidi value | .streamsBlockedUni value | .retireConnectionId value =>
    varint value
  | .newConnectionId seqNum retirePriorTo connId resetToken =>
    varint seqNum ++ (varint retirePriorTo ++ (bigEndian 1 connId.length ++ (connId ++ resetToken.toList)))
  | .pathChallenge data | .pathResponse data => data.toList
  | .connectionClose errorCode frameType reason =>
    varint errorCode ++ (varint frameType ++ (varint reason.length ++ reason))
  | .applicationClose errorCode reason => varint errorCode ++ (varint reason.length ++ reason)
  | .datagram data => payloadLength data.length ++ data

/-- The frames that the format can carry. Every length in memory is far below
`2 ^ 62`; the header pseudo-frames stand for a payload that is written in place. -/
def Encodable : Frame → Prop
  | .padding len => 1 ≤ len
  | .ping _ | .handshakeDone | .pathChallenge _ | .pathResponse _ => True
  | .ack ackDelay ranges ecnCounts =>
    ackDelay < 2 ^ 62 ∧ Acknowledges ranges.iter ∧ ∀ ecn ∈ ecnCounts, EcnEncodable ecn
  | .resetStream streamId errorCode finalSize =>
    streamId < 2 ^ 62 ∧ errorCode < 2 ^ 62 ∧ finalSize < 2 ^ 62
  | .stopSending first second | .maxStreamData first second | .streamDataBlocked first second =>
    first < 2 ^ 62 ∧ second < 2 ^ 62
  | .crypto data => data.off < 2 ^ 62 ∧ data.len ≤ 16383
  | .newToken token => token ≠ [] ∧ token.length < 2 ^ 62
  | .stream streamId data => streamId < 2 ^ 62 ∧ data.maxOff < 2 ^ 62 ∧ data.len ≤ 16383
  | .maxData value | .maxStreamsBidi value | .maxStreamsUni value | .dataBlocked value
  | .streamsBlockedBidi value | .streamsBlockedUni value | .retireConnectionId value =>
    value < 2 ^ 62
  | .newConnectionId seqNum retirePriorTo connId _ =>
    seqNum < 2 ^ 62 ∧ retirePriorTo < 2 ^ 62 ∧ 1 ≤ connId.length ∧ connId.length ≤ maxCidLen
  | .connectionClose errorCode frameType reason =>
    errorCode < 2 ^ 62 ∧ frameType < 2 ^ 62 ∧ reason.length < 2 ^ 62
  | .applicationClose errorCode reason => errorCode < 2 ^ 62 ∧ reason.length < 2 ^ 62
  | .datagram data => data.length ≤ 16383
  | .cryptoHeader .. | .streamHeader .. | .datagramHeader _ => False

theorem type_lt (frame : Frame) : frame.type < 2 ^ 62 := by
  cases frame with
  | ack _ _ ecnCounts =>
    simp only [type, ackType]
    split <;> decide
  | stream _ data =>
    simp only [type]
    split <;> decide
  | streamHeader _ _ _ fin =>
    simp only [type]
    split <;> decide
  | _ =>
    rw [type]
    decide

section Writers

theorem varint_zero : varint 0 = [0] := by decide

theorem writes_putPadding (len : Nat) : Writes tape (putPadding len) (List.replicate len 0) () := by
  induction len with
  | zero => exact writes_pure ()
  | succ len ih => exact (writes_putVarint (by decide)).bind ih

theorem writes_payloadLength {length : Nat} (bound : length ≤ 16383) :
    Writes tape (putVarintWithLen length 2) (payloadLength length) () := by
  apply writes_putVarintWithLen .two
  rw [FitsVarint]
  omega

theorem writes_encodeFrame (encodable : frame.Encodable) :
    Writes tape frame.encodeFrame (varint frame.type ++ frame.payload) () := by
  have writesType := writes_putVarint frame.type_lt
  cases frame with
  | padding len =>
    obtain ⟨left, rfl⟩ := Nat.exists_eq_add_of_le' encodable
    have bytes : varint 0 ++ List.replicate left 0 = List.replicate (left + 1) 0 := by
      rw [varint_zero]
      rfl
    show Writes tape (putPadding (left + 1)) (varint 0 ++ List.replicate left 0) ()
    rw [bytes]
    exact writes_putPadding (left + 1)
  | ping | handshakeDone =>
    have whole := writesType
    rw [← List.append_nil (varint _)] at whole
    exact whole
  | ack ackDelay ranges ecnCounts =>
    obtain ⟨delay, acknowledges, counts⟩ := encodable
    exact writes_putAckFrame delay acknowledges counts
  | resetStream =>
    obtain ⟨id, code, size⟩ := encodable
    apply writesType.bind
    apply (writes_putVarint id).bind
    exact (writes_putVarint code).bind (writes_putVarint size)
  | stopSending | maxStreamData | streamDataBlocked =>
    obtain ⟨first, second⟩ := encodable
    apply writesType.bind
    exact (writes_putVarint first).bind (writes_putVarint second)
  | crypto data =>
    obtain ⟨off, len⟩ := encodable
    have header : Writes tape (encodeCryptoHeader data.off data.len)
        (varint 0x06 ++ (varint data.off ++ payloadLength data.len)) () := by
      apply writesType.bind
      exact (writes_putVarint off).bind (writes_payloadLength len)
    have whole : Writes tape (crypto data).encodeFrame _ () := header.bind (writes_putBytes data.bytes)
    rwa [List.append_assoc, List.append_assoc] at whole
  | newToken token =>
    apply writesType.bind
    exact (writes_putVarint encodable.2).bind (writes_putBytes token)
  | stream streamId data =>
    obtain ⟨id, last, len⟩ := encodable
    have off := Nat.lt_of_le_of_lt data.off_le_maxOff last
    have header : Writes tape (encodeStreamHeader streamId data.off data.len data.fin)
        (varint (if data.fin then 0x0f else 0x0e) ++
          (varint streamId ++ (varint data.off ++ payloadLength data.len))) () := by
      apply writesType.bind
      apply (writes_putVarint id).bind
      exact (writes_putVarint off).bind (writes_payloadLength len)
    have whole : Writes tape (stream streamId data).encodeFrame _ () := header.bind (writes_putBytes data.bytes)
    rwa [List.append_assoc, List.append_assoc, List.append_assoc] at whole
  | maxData | maxStreamsBidi | maxStreamsUni | dataBlocked | streamsBlockedBidi
  | streamsBlockedUni | retireConnectionId =>
    exact writesType.bind (writes_putVarint encodable)
  | newConnectionId seqNum retirePriorTo connId resetToken =>
    obtain ⟨seq, retire, _, _⟩ := encodable
    apply writesType.bind
    apply (writes_putVarint seq).bind
    apply (writes_putVarint retire).bind
    apply (writes_putU 1 connId.length).bind
    exact (writes_putBytes connId).bind (writes_putBytes resetToken.toList)
  | pathChallenge data | pathResponse data => exact writesType.bind (writes_putBytes data.toList)
  | connectionClose errorCode frameType reason =>
    obtain ⟨code, type, length⟩ := encodable
    apply writesType.bind
    apply (writes_putVarint code).bind
    apply (writes_putVarint type).bind
    exact (writes_putVarint length).bind (writes_putBytes reason)
  | applicationClose errorCode reason =>
    obtain ⟨code, length⟩ := encodable
    apply writesType.bind
    apply (writes_putVarint code).bind
    exact (writes_putVarint length).bind (writes_putBytes reason)
  | datagram data =>
    have header : Writes tape (encodeDgramHeader data.length)
        (varint 0x31 ++ payloadLength data.length) () := writesType.bind (writes_payloadLength encodable)
    have whole : Writes tape (datagram data).encodeFrame _ () := header.bind (writes_putBytes data)
    rwa [List.append_assoc] at whole
  | cryptoHeader | streamHeader | datagramHeader => exact encodable.elim

theorem writes_toBytes (encodable : frame.Encodable) : Writes tape frame.toBytes (varint frame.type ++ frame.payload)
      (varint frame.type ++ frame.payload).length := by
  intro out fits
  have written := writes_encodeFrame encodable out fits
  have left := append_cap fits
  show EStateM.bind frame.encodeFrame _ out = _
  simp only [EStateM.bind, written]
  show EStateM.Result.ok (out.cap - (out.append _).cap) _ = _
  rw [← left, Nat.add_sub_cancel_left]

end Writers

end Quiche.Frame
