import Quiche.Frame.Wire

namespace Quiche

open Data

namespace Frame

open Octets

variable {frame : Frame} {smallestAck len : Nat} {blocks : List (Nat × Nat)}

section Varints

def varintsSize (values : List Nat) : Nat := (values.map fun value => (varint value).length).sum

theorem varintsLen_eq (values : List Nat) (bound : values.Forall (· < 2 ^ 62)) :
    varintsLen values = some (varintsSize values) := by
  induction values with
  | nil => rfl
  | cons value rest ih =>
    obtain ⟨valueBound, restBound⟩ := List.forall_cons _ _ _ |>.mp bound
    simp [varintsLen, varintLen_varint valueBound, ih restBound, varintsSize]

theorem varints_lt {values : List Nat} (known : varintsLen values = some len) : values.Forall (· < 2 ^ 62) := by
  induction values generalizing len with
  | nil => trivial
  | cons value rest ih =>
    obtain ⟨_, first, known⟩ := Option.bind_eq_some_iff.mp known
    obtain ⟨_, others, _⟩ := Option.bind_eq_some_iff.mp known
    exact (List.forall_cons _ _ _).mpr ⟨(varintLen_spec first).1, ih others⟩

end Varints

section Ack

theorem fills_putAckBlocks (descending : Descending smallestAck blocks) (bound : smallestAck < 2 ^ 62) :
    ∃ size, ackBlocksLen blocks smallestAck = some size ∧ Fills (putAckBlocks blocks smallestAck) size () := by
  induction descending with
  | nil => exact ⟨0, rfl, spends_pure ()⟩
  | @cons smallestAck start stop rest proper gap descending ih =>
    obtain ⟨size, length, filled⟩ := ih (by omega)
    have gapSize : 1 ≤ smallestAck - stop := by omega
    have blockSize : start ≤ stop - 1 := by omega
    have positive : 1 ≤ stop := by omega
    have gapBound : smallestAck - stop - 1 < 2 ^ 62 := by omega
    have blockBound : stop - 1 - start < 2 ^ 62 := by omega
    refine ⟨varintsSize [smallestAck - stop - 1, stop - 1 - start] + size, ?_, ?_⟩
    · have sizes := varintsLen_eq [smallestAck - stop - 1, stop - 1 - start] ⟨gapBound, blockBound⟩
      simp [ackBlocksLen, subChecked_of_le, Nat.le_of_lt gap, gapSize, positive, blockSize, sizes, length]
    · simp only [putAckBlocks, subtract_of_le (Nat.le_of_lt gap), subtract_of_le gapSize,
        subtract_of_le positive, subtract_of_le blockSize, pure_bind]
      apply Spends.of_eq
      · apply (fills_putVarint gapBound).bind
        exact (fills_putVarint blockBound).bind filled
      · simp [varintsSize, Nat.add_assoc]

theorem fills_putEcnCounts (ecn : EcnCounts) (encodable : EcnEncodable ecn) :
    Fills (putEcnCounts (some ecn)) (varintsSize [ecn.ect0Count, ecn.ect1Count, ecn.ecnCeCount]) () := by
  obtain ⟨ect0, ect1, ce⟩ := encodable
  apply Spends.of_eq
  · apply (fills_putVarint ect0).bind
    exact (fills_putVarint ect1).bind (fills_putVarint ce)
  · simp [varintsSize]

theorem varint_type_length (frame : Frame) : (varint frame.type).length = 1 := by
  cases frame with
  | ack _ _ ecnCounts => cases ecnCounts <;> rfl
  | stream _ data => cases fin : data.fin <;> simp only [type, fin] <;> rfl
  | streamHeader _ _ _ fin => cases fin <;> rfl
  | _ => rfl

theorem fills_putAckFrame {ackDelay : Nat} {ranges : RangeSet} {ecnCounts : Option EcnCounts}
    (delayBound : ackDelay < 2 ^ 62) (acknowledges : Acknowledges ranges.iter)
    (encodable : ∀ ecn ∈ ecnCounts, EcnEncodable ecn) : ∃ size, (ack ackDelay ranges ecnCounts).wireLen = some size ∧
      Fills (putAckFrame ackDelay ranges ecnCounts) size () := by
  obtain ⟨start, stop, rest, reversed, proper, within, descending⟩ := acknowledges.reverse_exists
  have length := descending.length_le
  have positive : 1 ≤ stop := by omega
  have blockSize : start ≤ stop - 1 := by omega
  have largestBound : stop - 1 < 2 ^ 62 := by omega
  have countBound : rest.length < 2 ^ 62 := by omega
  have blockBound : stop - 1 - start < 2 ^ 62 := by omega
  obtain ⟨size, blocksLength, filled⟩ := fills_putAckBlocks descending (by omega)
  have sizes := varintsLen_eq [stop - 1, ackDelay, rest.length, stop - 1 - start]
    ⟨largestBound, delayBound, countBound, blockBound⟩
  have written : ∀ counted, Fills (putEcnCounts ecnCounts) counted () → Fills (putAckFrame ackDelay ranges ecnCounts)
        (1 + varintsSize [stop - 1, ackDelay, rest.length, stop - 1 - start] + size + counted) () := by
    intro counted counts
    rw [putAckFrame, reversed]
    dsimp only
    rw [subtract_of_le positive, pure_bind, subtract_of_le blockSize, pure_bind]
    apply Spends.of_eq
    · apply (fills_putVarint (type_lt (ack ackDelay ranges ecnCounts))).bind
      apply (fills_putVarint largestBound).bind
      apply (fills_putVarint delayBound).bind
      apply (fills_putVarint countBound).bind
      apply (fills_putVarint blockBound).bind
      exact filled.bind counts
    · simp [varint_type_length, varintsSize, Nat.add_assoc]
  cases ecnCounts with
  | none =>
    refine ⟨_, ?_, written 0 (spends_pure ())⟩
    simp [wireLen, reversed, subChecked_of_le, positive, blockSize, sizes, blocksLength]
  | some ecn =>
    have counts := encodable ecn rfl
    have counted := varintsLen_eq [ecn.ect0Count, ecn.ect1Count, ecn.ecnCeCount]
      ⟨counts.ect0Count, counts.ect1Count, counts.ecnCeCount⟩
    refine ⟨_, ?_, written _ (fills_putEcnCounts ecn counts)⟩
    simp [wireLen, reversed, subChecked_of_le, positive, blockSize, sizes, blocksLength, counted]

theorem descending_of_ackBlocksLen (known : ackBlocksLen blocks smallestAck = some len) :
    Descending smallestAck blocks := by
  induction blocks generalizing smallestAck len with
  | nil => exact .nil _
  | cons block rest ih =>
    simp only [ackBlocksLen, Option.bind_eq_bind, Option.bind_eq_some_iff] at known
    obtain ⟨distance, above, gap, positive, top, proper, size, inside, _, _, _, others, _⟩ := known
    have behind := subChecked_spec above
    have apart := subChecked_spec positive
    have stop := subChecked_spec proper
    have start := subChecked_spec inside
    exact .cons (by omega) (by omega) (ih others)

end Ack

section Frames

/-- Every integer field fits a variable-length integer, and the ranges of an `ACK` are
ranges that the format can carry. A length field always takes two bytes. -/
def FieldsFit : Frame → Prop
  | .padding _ | .ping _ | .handshakeDone | .pathChallenge _ | .pathResponse _ | .datagram _
  | .datagramHeader _ => True
  | .ack ackDelay ranges ecnCounts =>
    ackDelay < 2 ^ 62 ∧ Acknowledges ranges.iter ∧ ∀ ecn ∈ ecnCounts, EcnEncodable ecn
  | .resetStream first second third => first < 2 ^ 62 ∧ second < 2 ^ 62 ∧ third < 2 ^ 62
  | .stopSending first second | .maxStreamData first second | .streamDataBlocked first second
  | .newConnectionId first second _ _ | .streamHeader first second _ _ =>
    first < 2 ^ 62 ∧ second < 2 ^ 62
  | .crypto data => data.off < 2 ^ 62
  | .newToken token => token.length < 2 ^ 62
  | .stream streamId data => streamId < 2 ^ 62 ∧ data.off < 2 ^ 62
  | .maxData value | .maxStreamsBidi value | .maxStreamsUni value | .dataBlocked value
  | .streamsBlockedBidi value | .streamsBlockedUni value | .retireConnectionId value
  | .cryptoHeader value _ => value < 2 ^ 62
  | .connectionClose errorCode frameType reason =>
    errorCode < 2 ^ 62 ∧ frameType < 2 ^ 62 ∧ reason.length < 2 ^ 62
  | .applicationClose errorCode reason => errorCode < 2 ^ 62 ∧ reason.length < 2 ^ 62

def header : Frame → Option (Action Unit × Nat)
  | .cryptoHeader offset length => some (encodeCryptoHeader offset length, length)
  | .streamHeader streamId offset length fin => some (encodeStreamHeader streamId offset length fin, length)
  | .datagramHeader length => some (encodeDgramHeader length, length)
  | _ => none

theorem fills_encodeCryptoHeader {offset : Nat} (bound : offset < 2 ^ 62) (length : Nat) :
    Fills (encodeCryptoHeader offset length) (1 + varintsSize [offset] + 2) () := by
  apply Spends.of_eq
  · apply (fills_putVarint (type_lt (cryptoHeader offset length))).bind
    exact (fills_putVarint bound).bind (fills_putVarintWithLen .two length)
  · simp [varint_type_length, varintsSize, Nat.add_assoc]

theorem fills_encodeStreamHeader {streamId offset : Nat} (id : streamId < 2 ^ 62) (bound : offset < 2 ^ 62)
    (length : Nat) (fin : Bool) :
    Fills (encodeStreamHeader streamId offset length fin) (1 + varintsSize [streamId, offset] + 2) () := by
  apply Spends.of_eq
  · apply (fills_putVarint (type_lt (streamHeader streamId offset length fin))).bind
    apply (fills_putVarint id).bind
    exact (fills_putVarint bound).bind (fills_putVarintWithLen .two length)
  · simp [varint_type_length, varintsSize, Nat.add_assoc]

theorem fills_encodeDgramHeader (length : Nat) : Fills (encodeDgramHeader length) (1 + 2) () :=
  (fills_putVarint (type_lt (datagramHeader length))).bind (fills_putVarintWithLen .two length)

theorem fills_putPadding (len : Nat) : Fills (putPadding len) len () := by
  induction len with
  | zero => exact spends_pure ()
  | succ len ih =>
    apply Spends.of_eq
    · exact (fills_putVarint (by decide)).bind ih
    · simp [varint_zero, Nat.add_comm]

theorem fills_type (frame : Frame) : Fills (putVarint frame.type) 1 () := by
  rw [← frame.varint_type_length]
  exact fills_putVarint frame.type_lt

theorem fills_encodeFrame (fits : frame.FieldsFit) (solid : frame.header = none) :
    ∃ size, frame.wireLen = some size ∧ Fills frame.encodeFrame size () := by
  have typed := frame.fills_type
  cases frame with
  | padding len => exact ⟨len, rfl, fills_putPadding len⟩
  | ping | handshakeDone => exact ⟨1, rfl, typed⟩
  | ack ackDelay ranges ecnCounts =>
    obtain ⟨delay, acknowledges, counts⟩ := fits
    exact fills_putAckFrame delay acknowledges counts
  | resetStream first second third =>
    obtain ⟨id, code, size⟩ := fits
    refine ⟨1 + varintsSize [first, second, third], ?_, ?_⟩
    · rw [wireLen, varintsLen_eq [first, second, third] ⟨id, code, size⟩, Option.map_some]
    · apply Spends.of_eq
      · apply typed.bind
        apply (fills_putVarint id).bind
        exact (fills_putVarint code).bind (fills_putVarint size)
      · simp [varintsSize]
  | stopSending first second | maxStreamData first second | streamDataBlocked first second =>
    obtain ⟨firstBound, secondBound⟩ := fits
    refine ⟨1 + varintsSize [first, second], ?_, ?_⟩
    · rw [wireLen, varintsLen_eq [first, second] ⟨firstBound, secondBound⟩, Option.map_some]
    · apply Spends.of_eq
      · apply typed.bind
        exact (fills_putVarint firstBound).bind (fills_putVarint secondBound)
      · simp [varintsSize]
  | crypto data =>
    refine ⟨1 + varintsSize [data.off] + 2 + data.len, ?_, ?_⟩
    · rw [wireLen, varintsLen_eq [data.off] fits, Option.map_some]
    · rw [← data.bytes_length]
      exact (fills_encodeCryptoHeader fits _).bind (fills_putBytes data.bytes)
  | newToken token =>
    refine ⟨1 + varintsSize [token.length] + token.length, ?_, ?_⟩
    · rw [wireLen, varintsLen_eq [token.length] fits, Option.map_some]
    · apply Spends.of_eq
      · apply typed.bind
        exact (fills_putVarint fits).bind (fills_putBytes token)
      · simp [varintsSize, Nat.add_assoc]
  | stream streamId data =>
    obtain ⟨id, off⟩ := fits
    refine ⟨1 + varintsSize [streamId, data.off] + 2 + data.len, ?_, ?_⟩
    · rw [wireLen, varintsLen_eq [streamId, data.off] ⟨id, off⟩, Option.map_some]
    · rw [← data.bytes_length]
      exact (fills_encodeStreamHeader id off _ data.fin).bind (fills_putBytes data.bytes)
  | maxData value | maxStreamsBidi value | maxStreamsUni value | dataBlocked value
  | streamsBlockedBidi value | streamsBlockedUni value | retireConnectionId value =>
    refine ⟨1 + varintsSize [value], ?_, ?_⟩
    · rw [wireLen, varintsLen_eq [value] fits, Option.map_some]
    · exact typed.bind (fills_putVarint fits)
  | newConnectionId seqNum retirePriorTo connId resetToken =>
    obtain ⟨seq, retire⟩ := fits
    refine ⟨1 + varintsSize [seqNum, retirePriorTo] + 1 + connId.length + 16, ?_, ?_⟩
    · rw [wireLen, varintsLen_eq [seqNum, retirePriorTo] ⟨seq, retire⟩, Option.map_some]
    · apply Spends.of_eq
      · apply typed.bind
        apply (fills_putVarint seq).bind
        apply (fills_putVarint retire).bind
        apply (fills_putU 1 connId.length).bind
        exact (fills_putBytes connId).bind (fills_putBytes resetToken.toList)
      · simp [varintsSize, Nat.add_assoc]
  | pathChallenge data | pathResponse data =>
    refine ⟨1 + 8, rfl, ?_⟩
    apply Spends.of_eq
    · apply typed.bind
      exact fills_putBytes data.toList
    · simp
  | connectionClose errorCode frameType reason =>
    obtain ⟨code, kind, length⟩ := fits
    refine ⟨1 + varintsSize [errorCode, frameType, reason.length] + reason.length, ?_, ?_⟩
    · rw [wireLen, varintsLen_eq [errorCode, frameType, reason.length] ⟨code, kind, length⟩, Option.map_some]
    · apply Spends.of_eq
      · apply typed.bind
        apply (fills_putVarint code).bind
        apply (fills_putVarint kind).bind
        exact (fills_putVarint length).bind (fills_putBytes reason)
      · simp [varintsSize, Nat.add_assoc]
  | applicationClose errorCode reason =>
    obtain ⟨code, length⟩ := fits
    refine ⟨1 + varintsSize [errorCode, reason.length] + reason.length, ?_, ?_⟩
    · rw [wireLen, varintsLen_eq [errorCode, reason.length] ⟨code, length⟩, Option.map_some]
    · apply Spends.of_eq
      · apply typed.bind
        apply (fills_putVarint code).bind
        exact (fills_putVarint length).bind (fills_putBytes reason)
      · simp [varintsSize, Nat.add_assoc]
  | datagram data =>
    exact ⟨1 + 2 + data.length, rfl, (fills_encodeDgramHeader _).bind (fills_putBytes data)⟩
  | cryptoHeader | streamHeader | datagramHeader => simp [header] at solid

/-- A frame has a length only where its fields can be written. -/
theorem fieldsFit_of_wireLen (known : frame.wireLen = some len) : frame.FieldsFit := by
  have bounds : ∀ {values : List Nat} {change : Nat → Nat}, (varintsLen values).map change = some len →
      values.Forall (· < 2 ^ 62) := by
    intro values change known
    obtain ⟨_, varints, _⟩ := Option.map_eq_some_iff.mp known
    exact varints_lt varints
  cases frame with
  | padding | ping | handshakeDone | pathChallenge | pathResponse | datagram | datagramHeader => trivial
  | ack ackDelay ranges ecnCounts =>
    rw [wireLen] at known
    split at known
    · cases known
    rename_i first rest reversed
    obtain ⟨largestAck, top, known⟩ := Option.bind_eq_some_iff.mp known
    obtain ⟨ackBlock, size, known⟩ := Option.bind_eq_some_iff.mp known
    obtain ⟨_, varints, known⟩ := Option.bind_eq_some_iff.mp known
    obtain ⟨_, others, known⟩ := Option.bind_eq_some_iff.mp known
    have stop := subChecked_spec top
    have start := subChecked_spec size
    obtain ⟨largest, delay, _⟩ := varints_lt varints
    refine ⟨delay, .of_reverse reversed (by omega) (by omega) (descending_of_ackBlocksLen others), ?_⟩
    intro ecn present
    cases present
    obtain ⟨_, counts, _⟩ := Option.bind_eq_some_iff.mp known
    obtain ⟨ect0, ect1, ce⟩ := varints_lt counts
    exact ⟨ect0, ect1, ce⟩
  | _ => exact bounds known

theorem fills_toBytes {size : Nat} (filled : Fills frame.encodeFrame size ()) : Fills frame.toBytes size size where
  fits := by
    intro octets enough
    obtain ⟨output, length, written⟩ := filled.fits octets enough
    have left := append_cap (length.trans_le enough)
    refine ⟨output, length, ?_⟩
    show EStateM.bind frame.encodeFrame _ octets = _
    simp only [EStateM.bind, written]
    show EStateM.Result.ok (octets.cap - (octets.append output).cap) _ = _
    rw [← left, length, Nat.add_sub_cancel_left]
  short := by
    intro octets less
    obtain ⟨after, failed⟩ := filled.short octets less
    refine ⟨after, ?_⟩
    show EStateM.bind frame.encodeFrame _ octets = _
    simp only [EStateM.bind, failed]

/-- The size of a frame is what `to_bytes` takes, and for a pseudo-frame what its header
takes with the payload. -/
theorem wireLen_exact (fits : frame.FieldsFit) : ∃ len, frame.wireLen = some len ∧ match frame.header with
      | none => Fills frame.toBytes len len
      | some (encode, payload) => ∃ size, Fills encode size () ∧ len = size + payload := by
  cases stands : frame.header with
  | none =>
    obtain ⟨size, length, filled⟩ := fills_encodeFrame fits stands
    exact ⟨size, length, fills_toBytes filled⟩
  | some written =>
    cases frame with
    | cryptoHeader offset length =>
      cases stands
      refine ⟨_, ?_, _, fills_encodeCryptoHeader fits length, rfl⟩
      rw [wireLen, varintsLen_eq [offset] fits, Option.map_some]
    | streamHeader streamId offset length fin =>
      cases stands
      refine ⟨_, ?_, _, fills_encodeStreamHeader fits.1 fits.2 length fin, rfl⟩
      rw [wireLen, varintsLen_eq [streamId, offset] fits, Option.map_some]
    | datagramHeader length =>
      cases stands
      exact ⟨1 + 2 + length, rfl, 1 + 2, fills_encodeDgramHeader length, rfl⟩
    | _ => simp [header] at stands

theorem wireLen_exact_ack :
    ∃ len, (ack 5 (.inline ⟨[(0, 3), (7, 9)], usizeMax⟩) (some ⟨1, 2, 70000⟩)).wireLen = some len ∧
      match (ack 5 (.inline ⟨[(0, 3), (7, 9)], usizeMax⟩) (some ⟨1, 2, 70000⟩)).header with
      | none => Fills (ack 5 (.inline ⟨[(0, 3), (7, 9)], usizeMax⟩) (some ⟨1, 2, 70000⟩)).toBytes len len
      | some (encode, payload) => ∃ size, Fills encode size () ∧ len = size + payload := by
  apply wireLen_exact
  refine ⟨by decide, ⟨by decide, ⟨by decide, by decide⟩, by decide, by decide⟩, ?_⟩
  intro ecn equal
  cases equal
  exact ⟨by decide, by decide, by decide⟩

end Frames

end Frame

end Quiche
