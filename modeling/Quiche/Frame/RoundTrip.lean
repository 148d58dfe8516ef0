import Quiche.Frame.Wire

namespace Quiche.Frame

open Data Octets

variable {frame decoded : Frame}

section Same

/-- The same bytes at the same place of the stream. A decoded payload is unread, so
`==`, which compares where the buffers start, sees no difference when the encoded one
was unread too. -/
structure SameData (data received : RangeBuf) : Prop where
  off : received.off = data.off
  bytes : received.bytes = data.bytes
  start : data.pos = data.start → received.viewOff = data.viewOff

/-- Equality up to what a frame leaves out: the probe that a `PING` was part of, how
the ranges of an `ACK` are stored, and the end of a stream, which `CRYPTO` data do
not have. -/
def Same : Frame → Frame → Prop
  | .ping _, received => received = .ping none
  | .ack ackDelay ranges ecnCounts, .ack ackDelay' ranges' ecnCounts' =>
    ackDelay' = ackDelay ∧ ranges'.iter = ranges.iter ∧ ecnCounts' = ecnCounts
  | .crypto data, .crypto data' => SameData data data'
  | .stream streamId data, .stream streamId' data' =>
    streamId' = streamId ∧ SameData data data' ∧ data'.fin = data.fin
  | frame, received => received = frame

theorem sameData_fromBytes (data : RangeBuf) (fin : Bool) : SameData data (.fromBytes data.bytes data.off fin) where
  off := RangeBuf.fromBytes_off _ _ _
  bytes := RangeBuf.fromBytes_bytes _ _ _
  start := by
    intro unread
    have := data.start_le_viewOff
    show data.viewOff - data.start + data.pos = data.viewOff
    omega

end Same

section Padding

variable {octets : Octets} {suffix : List UInt8}

theorem nextIsPadding_iff : nextIsPadding octets = true ↔ octets.rest.head? = some 0 := by
  cases rest : octets.rest with
  | nil =>
    have short : octets.cap < 1 := by
      rw [← rest_length, rest]
      exact Nat.zero_lt_one
    have failed : peekU8 octets = .error (.error .bufferTooShort) octets := congrFun (if_pos short) octets
    simp [nextIsPadding, failed]
  | cons byte suffix =>
    have single : octets.rest = [byte] ++ suffix := rest
    have peeked : peekU8 octets = .ok byte.toNat octets := by
      have peek := peekU_rest single rfl
      simp only [ofBigEndian, List.length_nil, Nat.pow_zero, Nat.mul_one, Nat.add_zero] at peek
      exact peek
    simp [nextIsPadding, peeked, ← UInt8.toNat_inj]

theorem skipPadding_run (fuel len count : Nat) (front : octets.rest = List.replicate count 0 ++ suffix)
    (ends : suffix.head? ≠ some 0) (enough : count ≤ fuel) :
    skipPadding fuel len octets = .ok (len + count) (octets.advance count) := by
  induction count generalizing fuel len octets with
  | zero =>
    rw [Nat.add_zero, show octets.advance 0 = octets from cursor.advance_zero octets]
    rw [List.replicate_zero, List.nil_append] at front
    have stops : ¬ nextIsPadding octets = true := by rwa [nextIsPadding_iff, front]
    cases fuel with
    | zero => rfl
    | succ fuel => exact congrFun (if_neg stops) octets
  | succ count ih =>
    obtain ⟨fuel, rfl⟩ := Nat.exists_eq_succ_of_ne_zero (Nat.ne_zero_of_lt enough)
    have continues : nextIsPadding octets = true := by
      rw [nextIsPadding_iff, front]
      rfl
    have zero : bigEndian 1 0 = [0] := by decide
    have taken : getU8 octets = .ok 0 (octets.advance 1) := by
      apply reads_getU_of_lt (by decide) octets (List.replicate count 0 ++ suffix)
      rw [zero]
      exact front
    have remaining : (octets.advance 1).rest = List.replicate count 0 ++ suffix := by
      rw [show (octets.advance 1).rest = octets.rest.drop 1 from cursor.rest_advance 1 octets, front]
      rfl
    have tail := ih fuel (len + 1) remaining (Nat.le_of_succ_le_succ enough)
    rw [show (octets.advance 1).advance count = octets.advance (1 + count) from
      cursor.advance_advance 1 count octets] at tail
    rw [Nat.add_comm count 1, ← Nat.add_assoc, ← tail]
    show (if nextIsPadding octets = true then _ else _ : Action Nat) octets = _
    rw [if_pos continues]
    show EStateM.bind getU8 _ octets = _
    simp only [EStateM.bind, taken]

end Padding

section Readers

theorem reads_getArray {size : Nat} (bytes : Vector UInt8 size) : Reads cursor (getArray size) bytes.toList bytes := by
  have length : bytes.toList.length = size := Vector.length_toList
  have read := reads_getBytes bytes.toList
  rw [length] at read
  apply read.bind_pure
  rw [dif_pos length]
  rfl

theorem reads_payloadLength {length : Nat} (bound : length ≤ 16383) :
    Reads cursor getVarint (payloadLength length) length := by
  apply reads_getVarint .two
  rw [FitsVarint]
  omega

theorem reads_getLength {ty flag length : Nat} (flagged : ty &&& flag ≠ 0) (bound : length ≤ 16383) :
    Reads cursor (getLength ty flag) (payloadLength length) length := by
  rw [getLength, if_pos flagged]
  exact reads_payloadLength bound

theorem reads_getOffset {ty off : Nat} (flagged : ty &&& 0x04 ≠ 0) (bound : off < 2 ^ 62) :
    Reads cursor (getOffset ty) (varint off) off := by
  rw [getOffset, if_pos flagged]
  exact reads_varint bound

theorem reads_parseStreamFrame {streamId : Nat} {data : RangeBuf} (encodable : (stream streamId data).Encodable) :
    Reads cursor (parseStreamFrame (stream streamId data).type) (stream streamId data).payload
      (.stream streamId (.fromBytes data.bytes data.off data.fin)) := by
  obtain ⟨id, last, len⟩ := encodable
  have off := Nat.lt_of_le_of_lt data.off_le_maxOff last
  have small : ¬ data.off + data.len ≥ maxStreamSize := Nat.not_le.mpr last
  have bytes := reads_getBytes data.bytes
  rw [data.bytes_length] at bytes
  have flags : ∀ fin : Bool, (if fin then 0x0f else 0x0e) &&& 0x04 ≠ 0 ∧ (if fin then 0x0f else 0x0e) &&& 0x02 ≠ 0 ∧
      decide ((if fin then 0x0f else 0x0e) &&& 0x01 ≠ 0) = fin := by decide
  obtain ⟨hasOffset, hasLength, hasFin⟩ := flags data.fin
  apply (reads_varint id).bind
  apply (reads_getOffset hasOffset off).bind
  apply (reads_getLength hasLength len).bind
  rw [if_neg small]
  apply bytes.bind_pure
  rw [type, hasFin]

theorem reads_parseFrame (encodable : frame.Encodable) (solid : ∀ len, frame ≠ .padding len) :
    ∃ decoded, frame.Same decoded ∧ Reads cursor (parseFrame frame.type) frame.payload decoded := by
  cases frame with
  | padding len => exact absurd rfl (solid len)
  | ping => exact ⟨.ping none, rfl, reads_pure _⟩
  | handshakeDone => exact ⟨.handshakeDone, rfl, reads_pure _⟩
  | ack ackDelay ranges ecnCounts =>
    obtain ⟨delay, acknowledges, counts⟩ := encodable
    obtain ⟨next, read, iter⟩ := reads_parseAckFrame delay acknowledges counts
    refine ⟨.ack ackDelay next ecnCounts, ⟨rfl, iter, rfl⟩, ?_⟩
    cases ecnCounts <;> exact read
  | resetStream streamId errorCode finalSize =>
    obtain ⟨id, code, size⟩ := encodable
    refine ⟨.resetStream streamId errorCode finalSize, rfl, ?_⟩
    apply (reads_varint id).bind
    apply (reads_varint code).bind
    exact (reads_varint size).bind_pure rfl
  | stopSending | maxStreamData | streamDataBlocked =>
    obtain ⟨first, second⟩ := encodable
    refine ⟨_, rfl, ?_⟩
    apply (reads_varint first).bind
    exact (reads_varint second).bind_pure rfl
  | crypto data =>
    obtain ⟨off, len⟩ := encodable
    refine ⟨.crypto (.fromBytes data.bytes data.off false), sameData_fromBytes data false, ?_⟩
    apply (reads_varint off).bind
    have bytes := reads_getBytes data.bytes
    rw [data.bytes_length] at bytes
    exact ((reads_payloadLength len).bind bytes).bind_pure rfl
  | newToken token =>
    obtain ⟨nonempty, length⟩ := encodable
    have positive : token.length ≠ 0 := fun empty => nonempty (List.eq_nil_of_length_eq_zero empty)
    refine ⟨.newToken token, rfl, ?_⟩
    apply (reads_varint length).bind
    rw [if_neg positive]
    exact (reads_getBytes token).bind_pure rfl
  | stream streamId data =>
    refine ⟨.stream streamId (.fromBytes data.bytes data.off data.fin),
      ⟨rfl, sameData_fromBytes data data.fin, rfl⟩, ?_⟩
    have read := reads_parseStreamFrame encodable
    simp only [type] at read ⊢
    cases fin : data.fin <;> rw [fin] at read <;> exact read
  | maxData | maxStreamsBidi | maxStreamsUni | dataBlocked | streamsBlockedBidi
  | streamsBlockedUni | retireConnectionId =>
    exact ⟨_, rfl, (reads_varint encodable).bind_pure rfl⟩
  | newConnectionId seqNum retirePriorTo connId resetToken =>
    obtain ⟨seq, retire, positive, short⟩ := encodable
    refine ⟨.newConnectionId seqNum retirePriorTo connId resetToken, rfl, ?_⟩
    apply (reads_varint seq).bind
    apply (reads_varint retire).bind
    have byte : connId.length < 256 ^ 1 := Nat.lt_of_le_of_lt short (by decide)
    apply (reads_getU_of_lt byte).bind
    rw [if_pos ⟨positive, short⟩]
    apply (reads_getBytes connId).bind
    exact (reads_getArray resetToken).bind_pure rfl
  | pathChallenge data | pathResponse data =>
    exact ⟨_, rfl, (reads_getArray data).bind_pure rfl⟩
  | connectionClose errorCode frameType reason =>
    obtain ⟨code, type, length⟩ := encodable
    refine ⟨.connectionClose errorCode frameType reason, rfl, ?_⟩
    apply (reads_varint code).bind
    apply (reads_varint type).bind
    exact ((reads_varint length).bind (reads_getBytes reason)).bind_pure rfl
  | applicationClose errorCode reason =>
    obtain ⟨code, length⟩ := encodable
    refine ⟨.applicationClose errorCode reason, rfl, ?_⟩
    apply (reads_varint code).bind
    exact ((reads_varint length).bind (reads_getBytes reason)).bind_pure rfl
  | datagram data =>
    refine ⟨.datagram data, rfl, ?_⟩
    have length : Reads cursor (getLength 0x31 0x01) _ _ := reads_getLength (by decide) encodable
    apply length.bind
    exact (reads_getBytes data).bind_pure rfl
  | cryptoHeader | streamHeader | datagramHeader => exact encodable.elim

end Readers

theorem allowed_short (frame : Frame) : allowed .short frame = true := by cases frame <;> rfl

section FromBytes

variable {octets : Octets} {suffix : List UInt8}

/-- The buffer behind the type of a frame. -/
abbrev afterType (frame : Frame) (octets : Octets) : Octets := octets.advance (varint frame.type).length

theorem afterType_rest (front : octets.rest = varint frame.type ++ frame.payload ++ suffix) :
    (frame.afterType octets).rest = frame.payload ++ suffix := by
  rw [List.append_assoc] at front
  rw [show (frame.afterType octets).rest = octets.rest.drop _ from cursor.rest_advance _ octets,
    front, List.drop_left]

theorem fromBytes_of_parse (front : octets.rest = varint frame.type ++ frame.payload ++ suffix)
    (parsed : parseFrame frame.type (frame.afterType octets) =
      .ok decoded ((frame.afterType octets).advance frame.payload.length)) :
    fromBytes .short octets = .ok decoded (octets.advance (varint frame.type ++ frame.payload).length) := by
  rw [List.append_assoc] at front
  have typed : getVarint octets = .ok frame.type (frame.afterType octets) :=
    reads_varint frame.type_lt octets (frame.payload ++ suffix) front
  have advanced : (frame.afterType octets).advance frame.payload.length =
      octets.advance (varint frame.type ++ frame.payload).length := by
    rw [List.length_append]
    exact cursor.advance_advance _ _ octets
  show EStateM.bind getVarint _ octets = _
  simp only [EStateM.bind, typed]
  show EStateM.bind (parseFrame frame.type) _ _ = _
  simp only [EStateM.bind, parsed, allowed_short, advanced]
  rfl

theorem parseFrame_padding {len : Nat} (encodable : (padding len).Encodable)
    (front : octets.rest = (padding len).payload ++ suffix) (ends : suffix.head? ≠ some 0) :
    parseFrame 0x00 octets = .ok (padding len) (octets.advance (padding len).payload.length) := by
  have enough : len - 1 ≤ octets.cap := by
    rw [← rest_length, front]
    simp [payload]
  have run := skipPadding_run octets.cap 1 (len - 1) front ends enough
  have total : 1 + (len - 1) = len := Nat.add_sub_of_le encodable
  rw [payload, List.length_replicate]
  show EStateM.bind (skipPadding octets.cap 1) _ octets = _
  simp only [EStateM.bind, run, total]
  rfl

theorem fromBytes_exists (encodable : frame.Encodable) : ∃ decoded, frame.Same decoded ∧
      ∀ octets : Octets, ∀ suffix, octets.rest = varint frame.type ++ frame.payload ++ suffix →
        (∀ len, frame = .padding len → suffix.head? ≠ some 0) → fromBytes .short octets =
          .ok decoded (octets.advance (varint frame.type ++ frame.payload).length) := by
  by_cases padded : ∃ len, frame = .padding len
  · obtain ⟨len, rfl⟩ := padded
    refine ⟨.padding len, rfl, fun octets suffix front ends => ?_⟩
    apply fromBytes_of_parse front
    exact parseFrame_padding encodable (afterType_rest front) (ends len rfl)
  · have solid : ∀ len, frame ≠ .padding len := fun len same => padded ⟨len, same⟩
    obtain ⟨decoded, same, read⟩ := reads_parseFrame encodable solid
    refine ⟨decoded, same, fun octets suffix front _ => ?_⟩
    apply fromBytes_of_parse front
    exact read (frame.afterType octets) suffix (afterType_rest front)

end FromBytes

/-- `to_bytes` writes the same bytes into every buffer that has room for them, and
`from_bytes` takes exactly these bytes for the same frame. Only padding runs on into
zeros that follow it. -/
def RoundTrips (frame : Frame) : Prop := ∃ bytes decoded, frame.Same decoded ∧ (∀ out : Octets, bytes.length ≤ out.cap →
      frame.toBytes out = .ok bytes.length (out.append bytes)) ∧
    ∀ octets : Octets, ∀ suffix, octets.rest = bytes ++ suffix → (∀ len, frame = .padding len → suffix.head? ≠ some 0) →
      fromBytes .short octets = .ok decoded (octets.advance bytes.length)

theorem toBytes_fromBytes (encodable : frame.Encodable) : frame.RoundTrips := by
  obtain ⟨decoded, same, reads⟩ := fromBytes_exists encodable
  exact ⟨varint frame.type ++ frame.payload, decoded, same, writes_toBytes encodable, reads⟩

theorem toBytes_fromBytes_ack : (ack 5 (.inline ⟨[(0, 3), (7, 9)], usizeMax⟩) (some ⟨1, 2, 70000⟩)).RoundTrips := by
  apply toBytes_fromBytes
  refine ⟨by decide, ⟨by decide, ⟨by decide, by decide⟩, by decide, by decide⟩, ?_⟩
  intro ecn equal
  cases equal
  exact ⟨by decide, by decide, by decide⟩

end Quiche.Frame
