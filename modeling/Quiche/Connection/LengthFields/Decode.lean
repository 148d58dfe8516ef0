import Quiche.Connection.LengthFields.Room

namespace Quiche

open Data Octets

namespace Draft

variable {sender : Sender} {plan : Plan} {draft middle final : Draft} {frames : List Op} {ops : List Sender.Op}
  {size queueLen : Nat} {maximumSupportedMtu : Option Nat}

/-- Every length field of a packet is read back as the number of bytes behind it, exactly where its CRYPTO and STREAM
frames carry fewer than 16384 bytes, and a packet with a long header has fewer than that behind its length. No packet
is that long unless a path looks for its MTU. -/
theorem length_fields_decode (reached : Sender.machine.run (.start size maximumSupportedMtu queueLen) ops = some sender)
    (started : start sender plan = some draft) (completed : machine.run draft frames = some middle)
    (filled : middle.fillLength = some final) : ((∀ field ∈ final.fields, field.Decodes final.b.buf) ↔
      machine.Guarded Admits draft frames ∧ (middle.envelope.ty ≠ .short → middle.packetLen < 2 ^ 14)) ∧
    (maximumSupportedMtu = none → ∀ field ∈ final.fields, field.Decodes final.b.buf) := by
  have begun := start_spec started
  have short : ∀ data ∈ draft.dgramSendQueue.queue, data.length < 2 ^ 14 := by
    rw [begun.queue]
    exact Sender.run_shortDgrams reached
  have kept := machine.run_keeps (fun _ _ _ => step_laid) begun.laid completed
  obtain ⟨held, small⟩ := fillLength_spec kept filled
  have decodes : (∀ field ∈ final.fields, field.Decodes final.b.buf) ↔ final.AllSmall := by
    constructor
    · intro every field member
      obtain ⟨within, held⟩ := held field member
      exact (held.decodes within).mp (every field member)
    · intro every field member
      obtain ⟨within, held⟩ := held field member
      exact (held.decodes within).mpr (every field member)
  have run : middle.AllSmall ↔ draft.AllSmall ∧ machine.Guarded Admits draft frames := by
    have waiting : ∀ state op next, (∀ data ∈ state.dgramSendQueue.queue, data.length < 2 ^ 14) →
        machine.step state op = some next → ∀ data ∈ next.dgramSendQueue.queue, data.length < 2 ^ 14 := by
      intro state op next short stepped
      obtain ⟨added, advances, _⟩ := step_adds stepped
      exact fun data member => short data (advances.queue member)
    exact machine.run_iff_guarded waiting (fun _ _ _ => step_allSmall) short completed
  have empty : draft.AllSmall := by simp [AllSmall, begun.fields]
  have exactly : (∀ field ∈ final.fields, field.Decodes final.b.buf) ↔
      machine.Guarded Admits draft frames ∧ (middle.envelope.ty ≠ .short → middle.packetLen < 2 ^ 14) := by
    rw [decodes, small, run, and_iff_right empty]
  refine ⟨exactly, fun unsought => exactly.mpr ?_⟩
  subst unsought
  have capped := Sender.run_capped reached
  have fitting : draft.Fitting sender.room :=
    ⟨begun.probeSize.trans (capped.probeSize _ _), begun.pnLen, Nat.le_of_eq begun.room⟩
  have bound : sender.room < 2 ^ 14 := Nat.lt_of_le_of_lt capped.room (by decide)
  have last := machine.run_keeps (fun _ _ _ => Fitting.step) fitting completed
  refine ⟨?_, fun _ => last.packetLen_lt kept bound⟩
  exact machine.guarded_of_guarded (fun _ op fitting _ => fitting.admits bound op) (fun _ _ _ fitting _ => fitting.step)
    fitting (Machine.guarded_true draft frames)

def plainHeader : Packet.Header :=
  ⟨.short, 1, [], [], 0, 1, none, none, false, Packet.Header.initialHeader.pktNumLen_le⟩

/-- A packet of a client without connection identifiers, its AEAD tags of 16 bytes. -/
def plainPlan (cryptoStream : Stream) (streams : StreamMap) : Plan where
  header := plainHeader
  pn := 0
  cryptoOverhead := 16
  applicationOverhead := some 16
  dcidLen := 0
  cwndAvailable := 30000
  isClosing := false
  isActive := true
  cryptoStream := cryptoStream
  streams := streams

def holding (bytes : List UInt8) : Stream :=
  let stream := Stream.new 0 0 bytes.length true true 0
  { stream with
    send := { stream.send with data := [.fromBytes bytes 0 false], off := bytes.length, len := bytes.length } }

/-- A packet with a CRYPTO and a DATAGRAM frame. -/
theorem length_fields_decode_mixed :
    let ops := [.handshakeCompleted, .peerTransportParams 65527 (some 65535), .dgramSend 0 (some 16) [1, 2, 3],
      .sendOnPath 0 (List.replicate 200 0) none]
    let plan := plainPlan (holding [7, 8, 9, 10, 11]) (.new 0 0 0)
    let frames := [.limit 12000, .probe, .crypto, .startDgrams, .dgram, .startStreams, .stream]
    ∃ sender draft middle final, Sender.machine.run (.start 1500 none 8) ops = some sender ∧
      start sender plan = some draft ∧ machine.run draft frames = some middle ∧ middle.fillLength = some final ∧
      final.fields.map (·.length) = [5, 3] ∧ ∀ field ∈ final.fields, field.Decodes final.b.buf := by
  intro ops plan frames
  have built : ∃ sender ∈ Sender.machine.run (.start 1500 none 8) ops, ∃ draft ∈ start sender plan,
      ∃ middle ∈ machine.run draft frames, ∃ final ∈ middle.fillLength, final.fields.map (·.length) = [5, 3] := by
    decide +kernel
  obtain ⟨sender, reached, draft, started, middle, completed, final, filled, lengths⟩ := built
  exact ⟨sender, draft, middle, final, reached, started, completed, filled, lengths,
    (length_fields_decode reached started completed filled).2 rfl⟩

def barePlan (streams : StreamMap) : Plan := plainPlan (.new 0 0 0 true true 0) streams

variable {bytes : List UInt8}

section

variable (nonempty : 0 < bytes.length)

include nonempty

theorem holding_valid (small : bytes.length < 2 ^ 62) : SendBuf.Valid bytes (holding bytes).send where
  contiguous := ⟨0, Nat.zero_le _, rfl, nonempty, Nat.zero_add _⟩
  showing buf member := by
    rw [List.mem_singleton.mp member]
    simp [SendBuf.Shows, RangeBuf.view, RangeBuf.fromBytes]
  off_eq := rfl
  pos_le := Nat.zero_le _
  consumed := by simp [holding, Stream.new, SendBuf.new]
  off_le := Nat.le_refl _
  small := small
  unreadLen_le := Nat.le_refl _
  acked := RangeSet.default_bounded _
  running := rfl
  finOff_eq := fun _ known => by cases known

theorem holding_offFront : (holding bytes).send.offFront = 0 := by
  have waits : ¬ (RangeBuf.fromBytes bytes 0 false).isEmpty = true := by
    have len : (RangeBuf.fromBytes bytes 0 false).len = bytes.length := rfl
    rw [RangeBuf.isEmpty_iff_len, len]
    omega
  exact SendBuf.frontOf_here waits

theorem holding_waiting : (holding bytes).send.waiting = bytes.length := by
  have len : (RangeBuf.fromBytes bytes 0 false).len = bytes.length := rfl
  have off : (RangeBuf.fromBytes bytes 0 false).off = 0 := rfl
  have waits : ¬ (RangeBuf.fromBytes bytes 0 false).isEmpty = true := by
    rw [RangeBuf.isEmpty_iff_len, len]
    omega
  have front := holding_offFront nonempty
  have queue : (holding bytes).send.data.drop (holding bytes).send.pos = [.fromBytes bytes 0 false] := rfl
  have open_ : ¬ (bytes.length ≤ 0 ∨ 0 ≠ 0 ∨ bytes.length ≤ 0) := by omega
  rw [SendBuf.waiting, front, queue, SendBuf.waitingFrom, if_neg waits, off]
  exact (if_neg open_).trans (by rw [len]; rfl)

end

/-- Stream 0 is the only one, and `bytes` wait on it. -/
def oneStream (bytes : List UInt8) : StreamMap :=
  ((StreamMap.new 0 0 0).set 0 (holding bytes)).insertFlushable (holding bytes).priorityKey

/-- The packet of a bare plan behind its header. -/
def bareDraft (sender : Sender) (streams : StreamMap) (b : Octets) : Draft where
  envelope := ⟨.short, 1, 16, 18, 1, 2, false, true, sender.emitDgram, maxDgramLen sender (barePlan streams),
    sender.probeSize 30000 false⟩
  b := b
  left := sender.room - 18
  framesEmpty := true
  isPmtudProbe := false
  cryptoStream := .new 0 0 0 true true 0
  dgramSendQueue := sender.dgramSendQueue
  streams := streams
  inDgrams := false
  inStreams := false
  dgramEmitted := false
  fields := []

theorem bare_start (sender : Sender) (streams : StreamMap) (fits : 22 ≤ sender.room) :
    ∃ b, b.off = 2 ∧ b.buf.length = sender.out.length ∧
      start sender (barePlan streams) = some (bareDraft sender streams b) := by
  have within := sender.room_le
  obtain ⟨out, made⟩ : ∃ out, out = withSlice sender.out := ⟨_, rfl⟩
  have length : out.buf.length = sender.out.length := by rw [made]; rfl
  have off : out.off = 0 := by rw [made]; rfl
  have first : 1 ≤ out.cap := by simp only [cap]; omega
  obtain ⟨one, oneMade⟩ : ∃ one, one = out.append (bigEndian 1 plainHeader.shortFirst.toNat) := ⟨_, rfl⟩
  have oneLength : one.buf.length = sender.out.length := by rw [oneMade, (append_grown _ out).length, length]
  have short : plainHeader.ty = .short := rfl
  have byte : ∀ value, (bigEndian 1 value).length ≤ out.cap := fun _ => first
  have oneOff : one.off = 1 := by rw [oneMade, append_off (byte _), off]; rfl
  have written : plainHeader.toBytes out = .ok () one := by
    rw [Packet.Header.toBytes, oneMade]
    exact (congrFun (if_pos short) out).trans (bind_ok (putU_append first) _)
  have second : (bigEndian 1 0).length ≤ one.cap := by simp only [cap, bigEndian_length]; omega
  have opened : open_ plainHeader 0 one = .ok (1, 2) (one.append (bigEndian 1 0)) := by
    rw [open_, get_bind, if_pos short]
    have numbered : Packet.encodePktNum 0 1 one = .ok () (one.append (bigEndian 1 0)) := putU_append second
    refine (bind_ok numbered _).trans ?_
    have moved : (one.append (bigEndian 1 0)).off = 2 := by rw [append_off second, oneOff]; rfl
    rw [get_bind, moved, oneOff]
    rfl
  refine ⟨one.append (bigEndian 1 0), by rw [append_off second, oneOff]; rfl, ?_, ?_⟩
  · rw [(append_grown _ one).length, oneLength]
  · have overhead : overhead plainHeader 16 one = 18 := by rw [overhead, oneOff]; rfl
    have tight : ¬ sender.room - 18 < payloadMinLen := by rw [payloadMinLen]; omega
    have header : (barePlan streams).header = plainHeader := rfl
    have tag : (barePlan streams).cryptoOverhead = 16 := rfl
    have number : (barePlan streams).pn = 0 := rfl
    rw [start, header, ← made, written]
    dsimp only
    rw [tag, overhead, subChecked_of_le (by omega), Option.bind_eq_bind, Option.bind_some, if_neg tight, number, opened]
    rfl

theorem stream_exists (nonempty : 0 < bytes.length) (small : bytes.length < 2 ^ 62)
    (entered : draft.inStreams = true) (waits : draft.streams = oneStream bytes) (left : bytes.length + 5 ≤ draft.left)
    (room : draft.b.off + draft.left ≤ draft.b.buf.length) :
    (∃ next, draft.stream = some next) ∧ draft.dataLen .stream = some bytes.length := by
  have queued : draft.streams.peekFlushable = some (.default 0) := by rw [waits]; rfl
  have id : (StreamPriorityKey.default 0).id = 0 := rfl
  have found : draft.streams.get 0 = some (holding bytes) := by
    rw [waits]
    exact AList.lookup_insert _
  have front := holding_offFront nonempty
  have length : Connection.streamHeaderLen 0 0 = some 5 := rfl
  have runs : ¬ (holding bytes).send.isStopped = true := by simp [holding, Stream.new, SendBuf.new, SendBuf.isStopped]
  have enough : ¬ draft.left < 5 := by omega
  obtain ⟨send, out, fin, emitted, _⟩ := SendBuf.emit_spec (holding_valid nonempty small) (draft.left - 5)
  have carried := SendBuf.emit_length emitted
  rw [holding_waiting nonempty, Nat.min_eq_right (by omega)] at carried
  have fills : Fills (Frame.encodeStreamHeader 0 0 out.length fin) 5 () :=
    Frame.fills_encodeStreamHeader (by decide) (by decide) out.length fin
  obtain ⟨b, written⟩ := writeSplit_exists draft.b (draft.left - 5) fills (by omega) out
  obtain ⟨next, pushed⟩ : ∃ next, pushFrame { draft with b, fields := draft.fields ++ [draft.fieldAt 5 out.length] }
      (.streamHeader 0 0 out.length fin) = some (next, true) := by
    have fits : 5 + out.length ≤ draft.left := by omega
    rw [pushFrame, wireLen_streamHeader length, Option.bind_eq_bind, Option.bind_some, if_pos fits]
    exact ⟨_, rfl⟩
  constructor
  · rw [Draft.stream, if_pos entered, queued]
    dsimp only
    rw [id, found]
    dsimp only
    rw [if_neg runs, front, length, Option.bind_eq_bind, Option.bind_some, if_neg enough, emitted,
      Option.bind_eq_bind, Option.bind_some, written, Option.bind_eq_bind, Option.bind_some, pushed]
    exact ⟨_, rfl⟩
  · rw [dataLen, if_pos entered, queued, Option.bind_eq_bind, Option.bind_some, id, found,
      Option.bind_eq_bind, Option.bind_some, if_neg runs, front, length, Option.bind_eq_bind, Option.bind_some,
      if_neg enough, holding_waiting nonempty,
      Nat.min_eq_right (by omega)]

/-- A path that was found to carry packets of 20000 bytes and is looked at again, with a smaller buffer. -/
def jumboOps (wide out : List UInt8) : List Sender.Op :=
  [.peerTransportParams 65527 none, .handshakeCompleted, .handshakeConfirmed, .sendOnPath 0 wide none,
    .sendSingle (barePlan (.new 0 0 0)) [.probe], .probeAcked 0 20000, .revalidatePmtu,
    .sendOnPath 0 out none]

theorem jumbo_exists {wide out : List UInt8} (wideLength : wide.length = 20000) (length : out.length = 19000) :
    ∃ sender, Sender.machine.run (.start 20000 (some 20000) 0) (jumboOps wide out) = some sender ∧
      sender.room = 19000 ∧ sender.out.length = 19000 ∧ sender.probeSize 30000 false = none := by
  obtain ⟨first, reached, known, active, completed, confirmed⟩ :
      ∃ first, Sender.machine.run (.start 20000 (some 20000) 0)
          [.peerTransportParams 65527 none, .handshakeCompleted, .handshakeConfirmed] = some first ∧
        first.path 0 = some ⟨20000, some (.new 20000)⟩ ∧ first.activePid = some 0 ∧
        first.handshakeCompleted = true ∧ first.handshakeConfirmed = true := ⟨_, rfl, rfl, rfl, rfl, rfl⟩
  have searching := Sender.sendOnPath_probing (by omega : 0 < wide.length) known rfl completed
  obtain ⟨second, made⟩ : ∃ second, second = first.sendOnPath 0 wide none := ⟨_, rfl⟩
  rw [← made] at searching
  have room : second.room = 1200 := by
    rw [searching]
    simp [Sender.room, Sender.setPath, Sender.path, wideLength, Pmtud.new, Pmtud.getProbeSize, Pmtud.getCurrentMtu,
      minClientInitialLen]
  have probeSize : second.probeSize 30000 false = some 20000 := by
    rw [searching]
    simp [Sender.probeSize, Sender.setPath, Sender.path, Sender.activePath, active, completed, confirmed, wideLength,
      Pmtud.new, Pmtud.getProbeSize, Pmtud.shouldProbe, minClientInitialLen]
  have size : second.out.length = 20000 := by
    rw [searching]
    simp [wideLength, Pmtud.new, Pmtud.getProbeSize]
  obtain ⟨b, off, buf, started⟩ := bare_start second (.new 0 0 0) (by omega)
  have room : 20000 - 18 ≤ b.cap := by simp only [cap]; omega
  obtain ⟨probe, probed, isProbe⟩ := probe_exists (bareDraft second (.new 0 0 0) b) probeSize rfl rfl
    (by decide : 18 < 20000) room
  obtain ⟨third, finished⟩ : ∃ third, third = second.finish probe := ⟨_, rfl⟩
  have sent : second.step (.sendSingle (barePlan (.new 0 0 0)) [.probe]) = some third := by
    have completed : machine.run (bareDraft second (.new 0 0 0) b) [.probe] = some probe :=
      Option.bind_eq_some_iff.mpr ⟨probe, probed, rfl⟩
    rw [Sender.step, started]
    dsimp only
    rw [completed, finished]
    rfl
  obtain ⟨pending, thirdActive, thirdCompleted⟩ :
      third.path 0 = some ⟨20000, some ((Pmtud.new 20000).setInFlight true)⟩ ∧ third.activePid = some 0 ∧
        third.handshakeCompleted = true := by
    rw [finished, Sender.finish, if_pos isProbe, Sender.updateActive, searching]
    simp [Sender.path, Sender.setPath, Sender.updatePath, active, completed, Pmtud.new, Pmtud.getProbeSize]
  obtain ⟨fourth, acked, found, fourthActive, fourthCompleted⟩ :
      ∃ fourth, third.step (.probeAcked 0 20000) = some fourth ∧
        fourth.path 0 = some ⟨20000, some ⟨some 20000, 20000, 20000, none, some 20000, false⟩⟩ ∧
        fourth.activePid = some 0 ∧ fourth.handshakeCompleted = true := by
    rw [Sender.step, Sender.probeAcked, pending]
    exact ⟨_, rfl, rfl, thirdActive, thirdCompleted⟩
  obtain ⟨fifth, revalidated, again, fifthActive, fifthCompleted⟩ :
      ∃ fifth, fourth.step .revalidatePmtu = some fifth ∧
        fifth.path 0 = some ⟨20000, some ⟨none, 20000, 20000, none, some 20000, false⟩⟩ ∧
        fifth.activePid = some 0 ∧ fifth.handshakeCompleted = true := by
    rw [Sender.step, Sender.revalidatePmtu, Sender.updateActive, fourthActive]
    refine ⟨_, rfl, ?_, fourthActive, fourthCompleted⟩
    dsimp only
    rw [Sender.path_updatePath, if_pos rfl, found]
    rfl
  have last := Sender.sendOnPath_probing (by omega : 0 < out.length) again rfl fifthCompleted
  refine ⟨fifth.sendOnPath 0 out none, ?_, ?_, ?_, ?_⟩
  · have whole := Sender.machine.run_append (.start 20000 (some 20000) 0)
      [.peerTransportParams 65527 none, .handshakeCompleted, .handshakeConfirmed]
      [.sendOnPath 0 wide none, .sendSingle (barePlan (.new 0 0 0)) [.probe], .probeAcked 0 20000, .revalidatePmtu,
        .sendOnPath 0 out none]
    rw [reached, Option.bind_some] at whole
    refine whole.trans (Option.bind_eq_some_iff.mpr ⟨second, by rw [made]; rfl, ?_⟩)
    refine Option.bind_eq_some_iff.mpr ⟨third, sent, Option.bind_eq_some_iff.mpr ⟨fourth, acked, ?_⟩⟩
    exact Option.bind_eq_some_iff.mpr ⟨fifth, revalidated, rfl⟩
  · rw [last]
    simp [Sender.room, Sender.setPath, Sender.path, length, Pmtud.getProbeSize, Pmtud.getCurrentMtu]
  · rw [last]
    simp [length, Pmtud.getProbeSize]
  · rw [last]
    simp [Sender.probeSize, Sender.setPath, Sender.path, Sender.activePath, fifthActive, length, Pmtud.getProbeSize]

/-- Where the discovery of the MTU sets the room for a packet, the length of a STREAM frame of 17000 bytes loses its
highest bit. -/
theorem large_stream_misread : ∃ sender draft middle final,
      Sender.machine.run (.start 20000 (some 20000) 0) (jumboOps (List.replicate 20000 0) (List.replicate 19000 0)) =
        some sender ∧ start sender (barePlan (oneStream (List.replicate 17000 0))) = some draft ∧
      machine.run draft [.limit 30000, .probe, .startStreams, .stream] = some middle ∧
      middle.fillLength = some final ∧ ∃ field ∈ final.fields, ¬ field.Decodes final.b.buf := by
  obtain ⟨sender, reached, wide, length, unprobed⟩ :=
    jumbo_exists (List.length_replicate (a := (0 : UInt8))) (List.length_replicate (a := 0))
  obtain ⟨bytes, made⟩ : ∃ bytes, bytes = List.replicate 17000 (0 : UInt8) := ⟨_, rfl⟩
  have size : bytes.length = 17000 := by rw [made, List.length_replicate]
  obtain ⟨b, off, buf, started⟩ := bare_start sender (oneStream bytes) (by omega)
  rw [← made]
  obtain ⟨entering, is⟩ : ∃ draft, draft = { bareDraft sender (oneStream bytes) b with
    left := min (sender.room - 18) 30000, inStreams := true } := ⟨_, rfl⟩
  have left : entering.left = 18982 := by
    rw [is]
    dsimp only
    omega
  have entered : entering.inStreams = true := by rw [is]
  have waits : entering.streams = oneStream bytes := by rw [is]; rfl
  have room : entering.b.off + entering.left ≤ entering.b.buf.length := by
    have same : entering.b = b := by rw [is]; rfl
    rw [left, same]
    omega
  obtain ⟨⟨middle, sent⟩, carried⟩ := stream_exists (by omega) (by omega) entered waits (by omega) room
  have reaches : machine.run (bareDraft sender (oneStream bytes) b) [.limit 30000, .probe, .startStreams] =
      some entering := by
    have looked : probe { bareDraft sender (oneStream bytes) b with left := min (sender.room - 18) 30000 } =
        some { bareDraft sender (oneStream bytes) b with left := min (sender.room - 18) 30000 } := by
      rw [probe, bareDraft, unprobed]
    have begins : startStreams { bareDraft sender (oneStream bytes) b with left := min (sender.room - 18) 30000 } =
        entering := by
      simp [is, startStreams, carriesData, bareDraft, wide, maxStreamOverhead]
    refine Option.bind_eq_some_iff.mpr ⟨_, rfl, Option.bind_eq_some_iff.mpr ⟨_, looked, ?_⟩⟩
    exact Option.bind_eq_some_iff.mpr ⟨_, congrArg some begins, rfl⟩
  obtain ⟨added, advances, lengths⟩ := stream_adds sent
  rw [carried] at lengths
  obtain ⟨field, rfl, carries⟩ := List.map_eq_singleton_iff.mp lengths
  have laid := (machine.run_keeps (fun _ _ _ => step_laid) (start_spec started).laid reaches).advances advances
  have short : middle.envelope.ty = .short := by rw [advances.envelope, is]; rfl
  have member : field ∈ middle.fields := by rw [advances.fields]; simp
  refine ⟨sender, _, middle, middle, reached, started, ?_, if_pos short, field, member, fun decodes => ?_⟩
  · have whole := machine.run_append (bareDraft sender (oneStream bytes) b)
      [.limit 30000, .probe, .startStreams] [.stream]
    rw [reaches, Option.bind_some] at whole
    exact whole.trans (Option.bind_eq_some_iff.mpr ⟨middle, sent, rfl⟩)
  · obtain ⟨_, before, held⟩ := laid.fields field member
    have small := (held.decodes (Nat.le_trans before middle.b.off_le)).mp decodes
    rw [LengthField.Small, carries, size] at small
    exact absurd small (by decide)

end Draft

end Quiche
