import Quiche.Connection.Assemble
import Quiche.Frame.Length
import Quiche.Octets.Grown
import Quiche.Packet.Header.RoundTrip
import Quiche.Stream.SendBuf.Emit

namespace Quiche

open Data Octets

section Headers

variable {header : Action Unit} {b next octets : Octets} {payload : List UInt8} {size hdrLen maxLen length : Nat}

/-- A header of `hdrLen` bytes, the last two of which are a forced length. -/
structure EndsForced (header : Action Unit) (hdrLen length : Nat) : Prop where
  whole : 2 ≤ hdrLen
  run : ∀ octets after, header octets = .ok () after → octets.Grown after ∧ octets.off + hdrLen ≤ octets.buf.length ∧
    (after.buf.drop (octets.off + hdrLen - 2)).take 2 = forced length

theorem endsForced_length (length : Nat) : EndsForced (putVarintWithLen length 2) 2 length where
  whole := Nat.le_refl 2
  run octets after written := by
    have grown := (run_fills (fills_putVarintWithLen .two length) written).1
    by_cases short : octets.cap < 2
    · have failed : putVarintWithLen length 2 octets = .error (.error .bufferTooShort) octets :=
        congrFun (if_pos short) octets
      cases failed.symm.trans written
    · have fits := Nat.not_lt.mp short
      cases (putVarintWithLen_two fits).symm.trans written
      have room := octets.off_le
      have enough : 2 ≤ octets.buf.length - octets.off := fits
      refine ⟨grown, by omega, ?_⟩
      have marked : (forced length).length ≤ octets.cap := fits
      rw [append_buf marked, Nat.add_sub_cancel, List.append_assoc]
      conv_lhs => rw [← octets.written_length, List.drop_left]
      exact List.take_left' rfl

theorem EndsForced.cons {put : Action Unit} (rest : EndsForced header hdrLen length) (fills : Fills put size ()) : EndsForced (put >>= fun _ => header) (size + hdrLen) length where
  whole := Nat.le_trans rest.whole (Nat.le_add_left _ _)
  run octets after written := by
    have within := octets.off_le
    obtain ⟨_, middle, put, written⟩ := bind_eq_ok written
    obtain ⟨grown, off⟩ := run_fills fills put
    obtain ⟨later, room, field⟩ := rest.run middle after written
    have length := grown.length
    refine ⟨grown.trans later, by omega, ?_⟩
    rw [← Nat.add_assoc, ← off]
    exact field

theorem endsForced_varint {value len : Nat} (known : varintLen value = some len)
    (rest : EndsForced header hdrLen length) :
    EndsForced (putVarint value >>= fun _ => header) (len + hdrLen) length := by
  obtain ⟨bound, size, _⟩ := varintLen_spec known
  rw [← size]
  exact rest.cons (fills_putVarint bound)

theorem endsForced_stream {streamId offset : Nat} (known : Connection.streamHeaderLen streamId offset = some hdrLen)
    (length : Nat) (fin : Bool) : EndsForced (Frame.encodeStreamHeader streamId offset length fin) hdrLen length := by
  obtain ⟨idLen, id, known⟩ := Option.bind_eq_some_iff.mp known
  obtain ⟨offLen, off, known⟩ := Option.bind_eq_some_iff.mp known
  cases known
  have type : varintLen (if fin then 0x08 ||| 0x04 ||| 0x02 ||| 0x01 else 0x08 ||| 0x04 ||| 0x02) = some 1 := by
    cases fin <;> rfl
  have ends := endsForced_varint type (endsForced_varint id (endsForced_varint off (endsForced_length length)))
  rw [← Nat.add_assoc, ← Nat.add_assoc] at ends
  exact ends

theorem writeSplit_spec (ends : EndsForced header hdrLen payload.length) (fits : payload.length ≤ maxLen)
    (written : Draft.writeSplit b header hdrLen maxLen payload = some next) :
    b.Grown next ∧ next.off = b.off + hdrLen + payload.length ∧
      (next.buf.drop (b.off + hdrLen - 2)).take 2 = forced payload.length := by
  rw [Draft.writeSplit] at written
  by_cases short : b.buf.length < b.off + hdrLen + maxLen
  · rw [if_pos short] at written
    cases written
  rw [if_neg short] at written
  have whole := ends.whole
  obtain ⟨front, made⟩ : ∃ front, front = (withSlice (b.buf.take (b.off + hdrLen))).advance b.off := ⟨_, rfl⟩
  have off : front.off = b.off := by
    simp only [made, advance, withSlice, List.length_take]
    omega
  have size : front.buf.length = b.off + hdrLen := by
    simp only [made, advance, withSlice, List.length_take]
    omega
  rw [← made] at written
  cases encoded : header front with
  | error fault hdr =>
    rw [encoded] at written
    cases written
  | ok result hdr =>
    rw [encoded] at written
    cases written
    obtain ⟨grown, _, field⟩ := ends.run front hdr encoded
    have length : hdr.buf.length = b.off + hdrLen := grown.length.trans size
    have prefixed : hdr.buf.take b.off = b.written := by
      have kept := grown.written
      rw [off] at kept
      rw [kept, Octets.written, off, made]
      simp only [advance, withSlice, List.take_take, Octets.written]
      rw [Nat.min_eq_left (Nat.le_add_right _ _)]
    rw [off] at field
    simp only [advance, withSlice, Nat.zero_add, List.append_assoc]
    refine ⟨⟨?_, ?_, ?_⟩, ?_, ?_⟩
    · simp only [List.length_append, List.length_drop, length]
      omega
    · simp only [List.length_append, List.length_drop, length]
      omega
    · dsimp only
      rw [List.take_append_of_le_length (by omega)]
      exact prefixed
    · simp only [List.length_append, List.length_drop, length]
      omega
    · rw [List.drop_append_of_le_length (by omega), List.take_append_of_le_length (by rw [List.length_drop]; omega)]
      exact field

end Headers

namespace LengthField

/-- The two bytes at the field are read as its length. -/
def Decodes (buf : List UInt8) (field : LengthField) : Prop :=
  getVarint ((withSlice buf).advance field.place) = .ok field.length ((withSlice buf).advance (field.place + 2))

/-- Two bytes are enough for the length. -/
def Small (field : LengthField) : Prop := field.length < 2 ^ 14

instance (field : LengthField) : Decidable field.Small := inferInstanceAs (Decidable (_ < _))

/-- The field holds its length, written to two bytes. -/
def Held (buf : List UInt8) (field : LengthField) : Prop := (buf.drop field.place).take 2 = forced field.length

theorem Held.decodes {buf : List UInt8} {field : LengthField} (held : field.Held buf)
    (within : field.place + 2 ≤ buf.length) : field.Decodes buf ↔ field.Small := by
  have rest : ((withSlice buf).advance field.place).rest = forced field.length ++ buf.drop (field.place + 2) := by
    have place : min field.place buf.length = field.place := Nat.min_eq_left (by omega)
    simp only [Octets.rest, advance, withSlice, Nat.zero_add, place]
    rw [← held, ← List.drop_drop, List.take_append_drop]
  have decodes := getVarint_forced rest
  have moved : ((withSlice buf).advance field.place).advance 2 = (withSlice buf).advance (field.place + 2) :=
    cursor.advance_advance _ _ _
  rw [moved] at decodes
  exact decodes

end LengthField

namespace Draft

variable {draft next final : Draft} {added : List LengthField} {op : Op}

/-- The length fields lie in the payload and hold their lengths. -/
structure Laid (draft : Draft) : Prop where
  header : draft.envelope.ty ≠ .short → draft.envelope.headerOffset + 2 ≤ draft.envelope.payloadOffset
  payload : draft.envelope.payloadOffset ≤ draft.b.off
  fields : ∀ field ∈ draft.fields, draft.envelope.payloadOffset ≤ field.place ∧ field.place + 2 ≤ draft.b.off ∧
    field.Held draft.b.buf

/-- More was written to the packet, with the fields `added` in it. Only a probe takes more room than was left. -/
structure Advances (draft next : Draft) (added : List LengthField) : Prop where
  envelope : next.envelope = draft.envelope
  fields : next.fields = draft.fields ++ added
  grown : draft.b.Grown next.b
  placed : ∀ field ∈ added, draft.b.off ≤ field.place ∧ field.place + 2 ≤ next.b.off ∧ field.Held next.b.buf
  queue : next.dgramSendQueue.queue ⊆ draft.dgramSendQueue.queue
  room : draft.envelope.probeSize = none → next.b.off + next.left ≤ draft.b.off + draft.left

section

variable (envelope : next.envelope = draft.envelope) (fields : next.fields = draft.fields) (b : next.b = draft.b)

include envelope fields b

theorem Advances.of_same (left : next.left ≤ draft.left)
    (queue : next.dgramSendQueue.queue ⊆ draft.dgramSendQueue.queue) : draft.Advances next [] where
  envelope := envelope
  fields := by rw [fields, List.append_nil]
  grown := by rw [b]; exact .refl draft.b
  placed := by simp
  queue := queue
  room := fun _ => by rw [b]; exact Nat.add_le_add_left left _

theorem Advances.idle (left : next.left = draft.left) (queue : next.dgramSendQueue = draft.dgramSendQueue) :
    draft.Advances next [] := .of_same envelope fields b (Nat.le_of_eq left) fun _ member => by rwa [queue] at member

end

theorem Advances.trans {last : Draft} (first : draft.Advances next []) (second : next.Advances last []) :
    draft.Advances last [] where
  envelope := second.envelope.trans first.envelope
  fields := by rw [second.fields, first.fields, List.append_nil, List.append_nil]
  grown := first.grown.trans second.grown
  placed := by simp
  queue := fun _ member => first.queue (second.queue member)
  room unprobed := Nat.le_trans (second.room (by rw [first.envelope]; exact unprobed)) (first.room unprobed)

theorem Laid.advances (laid : draft.Laid) (advances : draft.Advances next added) : next.Laid := by
  obtain ⟨envelope, fields, grown, placed, _⟩ := advances
  have payload := laid.payload
  have moved := grown.off_le
  constructor
  · rw [envelope]
    exact laid.header
  · rw [envelope]
    omega
  · intro field member
    rw [envelope]
    rcases List.mem_append.mp (fields ▸ member) with old | new
    · obtain ⟨behind, before, held⟩ := laid.fields field old
      exact ⟨behind, by omega, (grown.slice before).trans held⟩
    · obtain ⟨behind, before, held⟩ := placed field new
      exact ⟨by omega, before, held⟩

variable {frame : Frame} {pushed : Bool} {encode : Action Unit × Nat}

theorem toBytes_spec {b after : Octets} {len count : Nat} (known : frame.wireLen = some len)
    (written : frame.toBytes b = .ok count after) : b.Grown after ∧ after.off ≤ b.off + len := by
  cases stands : frame.header with
  | none =>
    obtain ⟨size, same, filled⟩ := Frame.fills_encodeFrame (Frame.fieldsFit_of_wireLen known) stands
    cases same.symm.trans known
    obtain ⟨grown, off⟩ := run_fills (Frame.fills_toBytes filled) written
    exact ⟨grown, Nat.le_of_eq off⟩
  | some encode =>
    -- A pseudo-frame writes nothing.
    cases frame with
    | cryptoHeader | streamHeader | datagramHeader =>
      cases written
      exact ⟨.refl b, Nat.le_add_right _ _⟩
    | _ => cases stands

theorem pushFrame_spec (run : draft.pushFrame frame = some (next, pushed)) : draft.Advances next [] := by
  obtain ⟨len, known, run⟩ := Option.bind_eq_some_iff.mp run
  by_cases fits : len ≤ draft.left
  · rw [if_pos fits] at run
    cases written : frame.toBytes draft.b with
    | ok count b =>
      obtain ⟨grown, off⟩ := toBytes_spec known written
      rw [written] at run
      cases run
      refine ⟨rfl, (List.append_nil _).symm, grown, by simp, fun _ member => member, fun _ => ?_⟩
      dsimp only
      omega
    | error fault b =>
      rw [written] at run
      cases run
  · rw [if_neg fits] at run
    cases run
    exact .idle rfl rfl rfl rfl rfl

theorem pushHeader_spec {len : Nat}
    (stands : frame.header = some encode) (known : frame.wireLen = some len) (fits : len ≤ draft.left)
    (run : draft.pushFrame frame = some (next, pushed)) :
    next = { draft with left := draft.left - len, framesEmpty := false } ∧ pushed = true := by
  have silent : frame.toBytes draft.b = .ok (draft.b.cap - draft.b.cap) draft.b := by
    cases frame with
    | cryptoHeader | streamHeader | datagramHeader => rfl
    | _ => cases stands
  rw [pushFrame, known, Option.bind_eq_bind, Option.bind_some, if_pos fits, silent] at run
  cases run
  exact ⟨rfl, rfl⟩

theorem probe_spec (probed : draft.probe = some next) : draft.Advances next [] := by
  rw [probe] at probed
  split at probed
  · cases probed
    exact .idle rfl rfl rfl rfl rfl
  rename_i probeSize known
  split at probed
  · obtain ⟨left, _, probed⟩ := Option.bind_eq_some_iff.mp probed
    obtain ⟨len, _, probed⟩ := Option.bind_eq_some_iff.mp probed
    obtain ⟨⟨padded, pushed⟩, padding, probed⟩ := Option.bind_eq_some_iff.mp probed
    have probes : ∀ {last}, Advances { draft with left, isPmtudProbe := true } last [] → draft.Advances last [] := by
      intro last advances
      exact { advances with room := fun unprobed => by cases known.symm.trans unprobed }
    have first := pushFrame_spec padding
    cases pushed with
    | true =>
      obtain ⟨⟨pinged, _⟩, ping, rfl⟩ := Option.map_eq_some_iff.mp probed
      exact probes (first.trans (pushFrame_spec ping))
    | false =>
      cases probed
      exact probes first
  · cases probed
    exact .idle rfl rfl rfl rfl rfl

def dataLen (draft : Draft) : Op → Option Nat
  | .crypto =>
    if draft.sendsCrypto then do
      let hdrLen := 1 + (← varintLen draft.cryptoStream.send.offFront) + 2
      if draft.left < hdrLen then none else some (min (draft.left - hdrLen) draft.cryptoStream.send.waiting)
    else none
  | .dgram =>
    if draft.inDgrams && draft.envelope.maxDgramLen.isSome then do
      let data ← draft.dgramSendQueue.queue.head?
      if 1 + 2 + data.length ≤ draft.left then some data.length else none
    else none
  | .stream =>
    if draft.inStreams then do
      let key ← draft.streams.peekFlushable
      let stream ← draft.streams.get key.id
      if stream.send.isStopped then none
      else do
        let hdrLen ← Connection.streamHeaderLen key.id stream.send.offFront
        if draft.left < hdrLen then none else some (min (draft.left - hdrLen) stream.send.waiting)
    else none
  | _ => none

/-- A CRYPTO or STREAM frame that is made carries fewer than 16384 bytes. -/
def Admits (draft : Draft) : Op → Prop
  | .crypto => ∀ len ∈ draft.dataLen .crypto, len < 2 ^ 14
  | .stream => ∀ len ∈ draft.dataLen .stream, len < 2 ^ 14
  | .limit _ | .probe | .push _ | .startDgrams | .dgram | .startStreams => True

instance (draft : Draft) : ∀ op, Decidable (draft.Admits op)
  | .crypto | .stream => inferInstanceAs (Decidable (∀ len ∈ _, _))
  | .limit _ | .probe | .push _ | .startDgrams | .dgram | .startStreams => .isTrue trivial

/-- Two bytes are enough for every length. -/
def AllSmall (draft : Draft) : Prop := ∀ field ∈ draft.fields, field.Small

theorem advances_split {header : Action Unit} {hdrLen maxLen : Nat} {payload : List UInt8} {middle : Draft} {b : Octets}
    (ends : EndsForced header hdrLen payload.length)
    (fits : payload.length ≤ maxLen) (written : writeSplit draft.b header hdrLen maxLen payload = some b)
    (stands : frame.header = some encode) (known : frame.wireLen = some (hdrLen + payload.length))
    (enough : hdrLen + payload.length ≤ draft.left) (run : middle.pushFrame frame = some (next, pushed))
    (same : middle.b = b ∧ middle.left = draft.left ∧ middle.envelope = draft.envelope)
    (queue : middle.dgramSendQueue.queue ⊆ draft.dgramSendQueue.queue)
    (fields : middle.fields = draft.fields ++ [draft.fieldAt hdrLen payload.length]) :
    draft.Advances next [draft.fieldAt hdrLen payload.length] := by
  obtain ⟨grown, off, held⟩ := writeSplit_spec ends fits written
  have whole := ends.whole
  obtain ⟨buffer, left, envelope⟩ := same
  obtain ⟨rfl, _⟩ := pushHeader_spec stands known (by omega) run
  rw [← buffer] at grown off held
  refine ⟨envelope, fields, grown, ?_, queue, fun _ => ?_⟩
  · intro field member
    cases List.mem_singleton.mp member
    simp only [fieldAt]
    exact ⟨by omega, by omega, held⟩
  · dsimp only
    omega

theorem wireLen_streamHeader {streamId offset hdrLen : Nat}
    (known : Connection.streamHeaderLen streamId offset = some hdrLen) (length : Nat) (fin : Bool) :
    (Frame.streamHeader streamId offset length fin).wireLen = some (hdrLen + length) := by
  obtain ⟨idLen, id, known⟩ := Option.bind_eq_some_iff.mp known
  obtain ⟨offLen, off, known⟩ := Option.bind_eq_some_iff.mp known
  cases known
  simp [Frame.wireLen, Frame.varintsLen, id, off]
  omega

theorem crypto_adds (stepped : draft.crypto = some next) :
    ∃ added, draft.Advances next added ∧ added.map (·.length) = (draft.dataLen .crypto).toList := by
  rw [crypto] at stepped
  rw [dataLen]
  by_cases sends : draft.sendsCrypto = true
  · rw [if_pos sends] at stepped ⊢
    obtain ⟨offLen, known, stepped⟩ := Option.bind_eq_some_iff.mp stepped
    rw [known, Option.bind_eq_bind, Option.bind_some]
    by_cases short : draft.left < 1 + offLen + 2
    · rw [if_pos short] at stepped ⊢
      cases stepped
      exact ⟨[], .idle rfl rfl rfl rfl rfl, rfl⟩
    · rw [if_neg short] at stepped ⊢
      obtain ⟨⟨send, out, fin⟩, emitted, stepped⟩ := Option.bind_eq_some_iff.mp stepped
      obtain ⟨b, written, stepped⟩ := Option.bind_eq_some_iff.mp stepped
      obtain ⟨⟨pushed, _⟩, run, stepped⟩ := Option.bind_eq_some_iff.mp stepped
      cases stepped
      have length := SendBuf.emit_length emitted
      have ends : EndsForced (Frame.encodeCryptoHeader draft.cryptoStream.send.offFront out.length) (1 + (offLen + 2))
          out.length := endsForced_varint rfl (endsForced_varint known (endsForced_length out.length))
      rw [← Nat.add_assoc] at ends
      have known : (Frame.cryptoHeader draft.cryptoStream.send.offFront out.length).wireLen =
          some (1 + offLen + 2 + out.length) := by
        simp [Frame.wireLen, Frame.varintsLen, known]
      refine ⟨_, advances_split ends (by omega) written rfl known (by omega) run ⟨rfl, rfl, rfl⟩
        (fun _ member => member) rfl, ?_⟩
      simp only [List.map_cons, List.map_nil, fieldAt, Option.toList_some, length]
  · rw [if_neg sends] at stepped ⊢
    cases stepped
    exact ⟨[], .idle rfl rfl rfl rfl rfl, rfl⟩

theorem dgram_adds (stepped : draft.dgram = some next) :
    ∃ added, draft.Advances next added ∧ added.map (·.length) = (draft.dataLen .dgram).toList := by
  rw [dgram] at stepped
  rw [dataLen]
  by_cases entered : draft.inDgrams = true
  · rw [if_pos entered] at stepped
    cases queued : draft.dgramSendQueue.queue.head? with
    | none =>
      rw [queued] at stepped
      cases stepped
      refine ⟨[], .idle rfl rfl rfl rfl rfl, ?_⟩
      split <;> rfl
    | some data =>
      cases limited : draft.envelope.maxDgramLen with
      | none =>
        rw [queued, limited] at stepped
        cases stepped
        refine ⟨[], .idle rfl rfl rfl rfl rfl, ?_⟩
        simp
      | some maxDgramPayload =>
        rw [queued, limited] at stepped
        simp only [entered, Option.isSome_some, Bool.and_self, if_true, Option.bind_eq_bind, Option.bind_some]
        dsimp only at stepped
        by_cases fits : 1 + 2 + data.length ≤ draft.left
        · rw [if_pos fits] at stepped ⊢
          obtain ⟨b, written, stepped⟩ := Option.bind_eq_some_iff.mp stepped
          obtain ⟨⟨pushed, _⟩, run, stepped⟩ := Option.bind_eq_some_iff.mp stepped
          cases stepped
          have ends : EndsForced (Frame.encodeDgramHeader data.length) (1 + 2) data.length :=
            endsForced_varint rfl (endsForced_length data.length)
          have advances := advances_split ends (Nat.le_refl _) written rfl rfl fits run ⟨rfl, rfl, rfl⟩
            (DatagramQueue.pop_subset _) rfl
          exact ⟨_, { advances with }, rfl⟩
        · rw [if_neg fits] at stepped ⊢
          split at stepped
          · cases stepped
            exact ⟨[], .of_same rfl rfl rfl (Nat.le_refl _) (DatagramQueue.pop_subset _), rfl⟩
          · cases stepped
            exact ⟨[], .idle rfl rfl rfl rfl rfl, rfl⟩
  · rw [if_neg entered] at stepped
    cases stepped
    refine ⟨[], .idle rfl rfl rfl rfl rfl, ?_⟩
    simp [entered]

theorem stream_adds (stepped : draft.stream = some next) :
    ∃ added, draft.Advances next added ∧ added.map (·.length) = (draft.dataLen .stream).toList := by
  rw [stream] at stepped
  rw [dataLen]
  by_cases entered : draft.inStreams = true
  · rw [if_pos entered] at stepped ⊢
    cases queued : draft.streams.peekFlushable with
    | none =>
      rw [queued] at stepped
      cases stepped
      exact ⟨[], .idle rfl rfl rfl rfl rfl, rfl⟩
    | some key =>
      rw [queued] at stepped
      dsimp only at stepped
      rw [Option.bind_eq_bind, Option.bind_some]
      cases found : draft.streams.get key.id with
      | none =>
        rw [found] at stepped
        cases stepped
        exact ⟨[], .idle rfl rfl rfl rfl rfl, rfl⟩
      | some old =>
        rw [found] at stepped
        dsimp only at stepped
        rw [Option.bind_eq_bind, Option.bind_some]
        by_cases stopped : old.send.isStopped = true
        · rw [if_pos stopped] at stepped ⊢
          cases stepped
          exact ⟨[], .idle rfl rfl rfl rfl rfl, rfl⟩
        · rw [if_neg stopped] at stepped ⊢
          obtain ⟨hdrLen, known, stepped⟩ := Option.bind_eq_some_iff.mp stepped
          rw [known, Option.bind_eq_bind, Option.bind_some]
          by_cases short : draft.left < hdrLen
          · rw [if_pos short] at stepped ⊢
            cases stepped
            exact ⟨[], .idle rfl rfl rfl rfl rfl, rfl⟩
          · rw [if_neg short] at stepped ⊢
            obtain ⟨⟨send, out, fin⟩, emitted, stepped⟩ := Option.bind_eq_some_iff.mp stepped
            obtain ⟨b, written, stepped⟩ := Option.bind_eq_some_iff.mp stepped
            obtain ⟨⟨pushed, _⟩, run, stepped⟩ := Option.bind_eq_some_iff.mp stepped
            cases stepped
            have length := SendBuf.emit_length emitted
            have advances := advances_split (endsForced_stream known out.length fin) (by omega) written rfl
              (wireLen_streamHeader known out.length fin) (by omega) run ⟨rfl, rfl, rfl⟩ (fun _ member => member) rfl
            refine ⟨_, { advances with }, ?_⟩
            simp only [List.map_cons, List.map_nil, fieldAt, Option.toList_some, length]
  · rw [if_neg entered] at stepped ⊢
    cases stepped
    exact ⟨[], .idle rfl rfl rfl rfl rfl, rfl⟩

theorem step_adds (stepped : draft.step op = some next) :
    ∃ added, draft.Advances next added ∧ added.map (·.length) = (draft.dataLen op).toList := by
  cases op with
  | limit window =>
    cases stepped
    exact ⟨[], .of_same rfl rfl rfl (Nat.min_le_left _ _) fun _ member => member, rfl⟩
  | probe => exact ⟨[], probe_spec stepped, rfl⟩
  | push frame =>
    obtain ⟨⟨pushed, _⟩, run, rfl⟩ := Option.map_eq_some_iff.mp stepped
    exact ⟨[], pushFrame_spec run, rfl⟩
  | crypto => exact crypto_adds stepped
  | startDgrams =>
    cases stepped
    exact ⟨[], .idle rfl rfl rfl rfl rfl, rfl⟩
  | dgram => exact dgram_adds stepped
  | startStreams =>
    cases stepped
    exact ⟨[], .idle rfl rfl rfl rfl rfl, rfl⟩
  | stream => exact stream_adds stepped

theorem admits_iff (short : ∀ data ∈ draft.dgramSendQueue.queue, data.length < 2 ^ 14) :
    (∀ len ∈ draft.dataLen op, len < 2 ^ 14) ↔ draft.Admits op := by
  cases op with
  | crypto | stream => exact .rfl
  | dgram =>
    refine iff_true_intro fun len carried => ?_
    rw [dataLen] at carried
    split at carried
    · obtain ⟨data, queued, carried⟩ := Option.bind_eq_some_iff.mp carried
      split at carried <;> cases carried
      exact short data (List.mem_of_head? queued)
    · cases carried
  | _ => exact iff_true_intro fun len carried => by cases carried

theorem step_allSmall (short : ∀ data ∈ draft.dgramSendQueue.queue, data.length < 2 ^ 14)
    (stepped : draft.step op = some next) : next.AllSmall ↔ draft.AllSmall ∧ draft.Admits op := by
  obtain ⟨added, ⟨_, fields, _, _⟩, lengths⟩ := step_adds stepped
  have small : (∀ field ∈ added, field.Small) ↔ draft.Admits op := by
    rw [← admits_iff short]
    cases carried : draft.dataLen op with
    | none =>
      rw [carried] at lengths
      simp [List.map_eq_nil_iff.mp lengths]
    | some len =>
      rw [carried] at lengths
      obtain ⟨field, rfl, is⟩ := List.map_eq_singleton_iff.mp lengths
      simp [LengthField.Small, is]
  rw [AllSmall, fields, AllSmall, ← small]
  simp [or_imp, forall_and]

theorem step_laid (laid : draft.Laid) (stepped : draft.step op = some next) : next.Laid := by
  obtain ⟨added, advances, _⟩ := step_adds stepped
  exact laid.advances advances

/-- The bytes that the length of a long header counts. -/
def packetLen (draft : Draft) : Nat :=
  draft.envelope.pnLen + (draft.b.off - draft.envelope.payloadOffset) + draft.envelope.cryptoOverhead

theorem fillLength_spec (laid : draft.Laid) (filled : draft.fillLength = some final) :
    (∀ field ∈ final.fields, field.place + 2 ≤ final.b.buf.length ∧ field.Held final.b.buf) ∧
      (final.AllSmall ↔ draft.AllSmall ∧ (draft.envelope.ty ≠ .short → draft.packetLen < 2 ^ 14)) := by
  have within := draft.b.off_le
  rw [fillLength] at filled
  by_cases short : draft.envelope.ty = .short
  · rw [if_pos short] at filled
    cases filled
    refine ⟨fun field member => ?_, by simp [short]⟩
    obtain ⟨_, before, held⟩ := laid.fields field member
    exact ⟨by omega, held⟩
  · rw [if_neg short] at filled
    have reserved := laid.header short
    have payload := laid.payload
    obtain ⟨front, made⟩ : ∃ front, front = (withSlice draft.b.buf).advance draft.envelope.headerOffset := ⟨_, rfl⟩
    have off : front.off = draft.envelope.headerOffset := by
      simp only [made, advance, withSlice]
      omega
    have same : front.buf = draft.b.buf := by rw [made]; rfl
    have enough : 2 ≤ front.cap := by
      simp only [cap, off, same]
      omega
    dsimp only at filled
    rw [← made, payloadLengthLen, ← packetLen, putVarintWithLen_two enough] at filled
    cases filled
    have marked : (forced draft.packetLen).length ≤ front.cap := enough
    have buf := append_buf marked
    have written := front.written_length
    rw [off] at written
    have length : (front.append (forced draft.packetLen)).buf.length = draft.b.buf.length :=
      (append_grown _ front).length.trans (by rw [same])
    constructor
    · intro field member
      simp only [advance, withSlice]
      rw [length]
      rcases List.mem_append.mp member with old | new
      · obtain ⟨behind, before, held⟩ := laid.fields field old
        refine ⟨by omega, ?_⟩
        have kept : (front.append (forced draft.packetLen)).buf.drop field.place = draft.b.buf.drop field.place := by
          have size : (front.written ++ forced draft.packetLen).length = draft.envelope.headerOffset + 2 := by
            rw [List.length_append, written]
            rfl
          have there : (forced draft.packetLen).length = 2 := rfl
          rw [buf, off, same, List.drop_append, List.drop_eq_nil_of_le (by omega), List.nil_append, size, there,
            List.drop_drop]
          exact congrArg (draft.b.buf.drop ·) (by omega)
        rw [LengthField.Held, kept]
        exact held
      · cases List.mem_singleton.mp new
        refine ⟨by dsimp only; omega, ?_⟩
        rw [LengthField.Held, buf, List.append_assoc]
        dsimp only
        conv_lhs => rw [← written, List.drop_left]
        exact List.take_left' rfl
    · simp only [AllSmall, LengthField.Small, List.mem_append, List.mem_singleton, or_imp, forall_and, forall_eq, ne_eq,
        short, not_false_eq_true, true_imp_iff]

end Draft

end Quiche
