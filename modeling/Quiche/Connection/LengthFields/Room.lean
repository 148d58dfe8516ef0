import Quiche.Connection.LengthFields

namespace Quiche

open Data Octets

namespace Draft

variable {sender : Sender} {plan : Plan} {draft next final : Draft} {op : Op} {room : Nat}

variable {pn len : Nat} {b after : Octets}

theorem encodePktNum_off {pnLen : Nat} (encoded : Packet.encodePktNum pn pnLen b = .ok () after) :
    after.off = b.off + pnLen := by
  unfold Packet.encodePktNum at encoded
  split at encoded
  · exact (run_fills (fills_putU 1 pn) encoded).2
  · exact (run_fills (fills_putU 2 pn) encoded).2
  · exact (run_fills (fills_putU 3 pn) encoded).2
  · exact (run_fills (fills_putU 4 pn) encoded).2
  · cases encoded

theorem skip_ok (skipped : skip len b = .ok () after) : after.off = b.off + len := by
  by_cases short : b.cap < len
  · have failed : skip len b = .error (.error .bufferTooShort) b := congrFun (if_pos short) b
    cases failed.symm.trans skipped
  · have same : skip len b = .ok () (b.advance len) := congrFun (if_neg short) b
    cases same.symm.trans skipped
    simp only [cap] at short
    have := b.off_le
    simp only [advance]
    omega

theorem open_spec {header : Packet.Header} {headerOffset payloadOffset : Nat}
    (opened : open_ header pn b = .ok (headerOffset, payloadOffset) after) :
    headerOffset = b.off ∧ payloadOffset = after.off ∧
      after.off = b.off + header.pktNumLen + if header.ty = .short then 0 else payloadLengthLen := by
  rw [open_, get_bind] at opened
  have numbered : ∀ {middle : Octets}, (Packet.encodePktNum pn header.pktNumLen >>= fun _ => get >>= fun octets =>
      pure (b.off, octets.off) : Action (Nat × Nat)) middle = .ok (headerOffset, payloadOffset) after →
      headerOffset = b.off ∧ payloadOffset = after.off ∧ after.off = middle.off + header.pktNumLen := by
    intro middle returned
    obtain ⟨_, last, encoded, rest⟩ := bind_eq_ok returned
    have moved := encodePktNum_off encoded
    cases rest
    exact ⟨rfl, rfl, moved⟩
  by_cases short : header.ty = .short
  · rw [if_pos short] at opened ⊢
    exact numbered opened
  · rw [if_neg short] at opened ⊢
    obtain ⟨_, middle, skipped, rest⟩ := bind_eq_ok opened
    have moved := skip_ok skipped
    obtain ⟨is, off, length⟩ := numbered rest
    exact ⟨is, off, by omega⟩

/-- What `send_single` starts a packet with. -/
structure Started (sender : Sender) (plan : Plan) (draft : Draft) : Prop where
  laid : draft.Laid
  fields : draft.fields = []
  queue : draft.dgramSendQueue = sender.dgramSendQueue
  probeSize : draft.envelope.probeSize = sender.probeSize plan.cwndAvailable plan.isClosing
  pnLen : draft.envelope.pnLen ≤ draft.envelope.payloadOffset
  room : draft.b.off + draft.left + draft.envelope.cryptoOverhead = sender.room

theorem start_spec (started : start sender plan = some draft) : Started sender plan draft := by
  rw [start] at started
  cases written : plan.header.toBytes (withSlice sender.out) with
  | error fault b =>
    rw [written] at started
    cases started
  | ok result b =>
    rw [written] at started
    obtain ⟨left, difference, started⟩ := Option.bind_eq_some_iff.mp started
    obtain ⟨enough, rest⟩ := subChecked_spec difference
    by_cases tight : left < payloadMinLen
    · rw [if_pos tight] at started
      cases started
    · rw [if_neg tight] at started
      cases opened : open_ plan.header plan.pn b with
      | error fault after =>
        rw [opened] at started
        cases started
      | ok offsets after =>
        obtain ⟨headerOff, payloadOff, off⟩ := open_spec opened
        rw [opened] at started
        cases started
        refine ⟨⟨fun long => ?_, Nat.le_of_eq payloadOff, by simp⟩, rfl, rfl, rfl, ?_, ?_⟩
        · dsimp only at long ⊢
          rw [if_neg long, payloadLengthLen] at off
          omega
        · dsimp only
          omega
        · rw [overhead] at enough rest
          dsimp only
          omega

/-- A packet with its AEAD tag stays within `room`, and is no probe. -/
structure Fitting (room : Nat) (draft : Draft) : Prop where
  probeSize : draft.envelope.probeSize = none
  pnLen : draft.envelope.pnLen ≤ draft.envelope.payloadOffset
  room : draft.b.off + draft.left + draft.envelope.cryptoOverhead ≤ room

theorem Fitting.step (fitting : draft.Fitting room) (stepped : draft.step op = some next) : next.Fitting room := by
  obtain ⟨added, advances, _⟩ := step_adds stepped
  have within := fitting.room
  have spent := advances.room fitting.probeSize
  constructor
  · rw [advances.envelope]
    exact fitting.probeSize
  · rw [advances.envelope]
    exact fitting.pnLen
  · rw [advances.envelope]
    omega

theorem dataLen_le (carried : draft.dataLen op = some len) : len ≤ draft.left := by
  cases op with
  | crypto =>
    rw [dataLen] at carried
    split at carried
    · obtain ⟨offLen, _, carried⟩ := Option.bind_eq_some_iff.mp carried
      dsimp only at carried
      split at carried
      · cases carried
      · cases carried
        omega
    · cases carried
  | dgram =>
    rw [dataLen] at carried
    split at carried
    · obtain ⟨data, _, carried⟩ := Option.bind_eq_some_iff.mp carried
      split at carried
      · cases carried
        omega
      · cases carried
    · cases carried
  | stream =>
    rw [dataLen] at carried
    split at carried
    · obtain ⟨key, _, carried⟩ := Option.bind_eq_some_iff.mp carried
      obtain ⟨stream, _, carried⟩ := Option.bind_eq_some_iff.mp carried
      split at carried
      · cases carried
      · obtain ⟨hdrLen, _, carried⟩ := Option.bind_eq_some_iff.mp carried
        split at carried
        · cases carried
        · cases carried
          omega
    · cases carried
  | _ => cases carried

theorem Fitting.admits (fitting : draft.Fitting room) (small : room < 2 ^ 14) (op : Op) : draft.Admits op := by
  have within := fitting.room
  cases op with
  | crypto | stream =>
    intro len carried
    have bound := dataLen_le carried
    omega
  | _ => trivial

theorem Fitting.packetLen_lt (fitting : draft.Fitting room) (laid : draft.Laid) (small : room < 2 ^ 14) :
    draft.packetLen < 2 ^ 14 := by
  have within := fitting.room
  have number := fitting.pnLen
  have payload := laid.payload
  rw [packetLen]
  omega

theorem pushFrame_exists (draft : Draft) (frame : Frame) (fits : frame.FieldsFit) (known : frame.wireLen = some len)
    (solid : frame.header = none) (left : len ≤ draft.left) (room : len ≤ draft.b.cap) :
    ∃ next, draft.pushFrame frame = some (next, true) ∧ next.b.cap + len = draft.b.cap ∧
      next.left + len = draft.left ∧ next.isPmtudProbe = draft.isPmtudProbe := by
  obtain ⟨size, is, written⟩ := Frame.wireLen_exact fits
  rw [solid] at written
  cases known.symm.trans is
  obtain ⟨b, written, spent⟩ := written.room room
  rw [pushFrame, known, Option.bind_eq_bind, Option.bind_some, if_pos left, written]
  exact ⟨_, rfl, spent, Nat.sub_add_cancel left, rfl⟩

theorem probe_exists (draft : Draft) {size : Nat} (known : draft.envelope.probeSize = some size) (short : draft.envelope.ty = .short)
    (fresh : draft.framesEmpty = true) (overhead : draft.envelope.overhead < size)
    (room : size - draft.envelope.overhead ≤ draft.b.cap) :
    ∃ next, draft.probe = some next ∧ next.isPmtudProbe = true := by
  obtain ⟨left, rest⟩ : ∃ left, left = size - draft.envelope.overhead := ⟨_, rfl⟩
  obtain ⟨padded, padding, spent, less, probe⟩ :=
    pushFrame_exists { draft with left, isPmtudProbe := true } (.padding (left - 1)) trivial rfl rfl
      (Nat.sub_le left 1) (by dsimp only; omega)
  obtain ⟨pinged, ping, _, _, still⟩ :=
    pushFrame_exists padded (.ping (some size)) trivial rfl rfl (by dsimp only at less; omega)
      (by dsimp only at spent; omega)
  refine ⟨pinged, ?_, still.trans probe⟩
  rw [Draft.probe, known]
  dsimp only
  rw [if_pos ⟨short, fresh⟩, subChecked_of_le (Nat.le_of_lt overhead), ← rest, Option.bind_eq_bind, Option.bind_some,
    subChecked_of_le (by omega), Option.bind_eq_bind, Option.bind_some, padding, Option.bind_some,
    if_pos rfl, ping]
  rfl

theorem writeSplit_exists (b : Octets) (maxLen : Nat) {header : Action Unit} {hdrLen : Nat} (fills : Fills header hdrLen ())
    (room : b.off + hdrLen + maxLen ≤ b.buf.length) (payload : List UInt8) :
    ∃ next, writeSplit b header hdrLen maxLen payload = some next := by
  obtain ⟨front, made⟩ : ∃ front, front = (withSlice (b.buf.take (b.off + hdrLen))).advance b.off := ⟨_, rfl⟩
  have enough : hdrLen ≤ front.cap := by
    simp only [made, advance, withSlice, cap, List.length_take]
    omega
  obtain ⟨hdr, encoded, _⟩ := fills.room enough
  rw [writeSplit, if_neg (by omega), ← made, encoded]
  exact ⟨_, rfl⟩

theorem run_queue {ops : List Op} (completed : machine.run draft ops = some next) :
    next.dgramSendQueue.queue ⊆ draft.dgramSendQueue.queue := by
  have kept : ∀ state op after, state.dgramSendQueue.queue ⊆ draft.dgramSendQueue.queue →
      machine.step state op = some after → after.dgramSendQueue.queue ⊆ draft.dgramSendQueue.queue := by
    intro state op after within stepped
    obtain ⟨added, advances, _⟩ := step_adds stepped
    exact fun _ member => within (advances.queue member)
  exact machine.run_keeps kept (fun _ member => member) completed

end Draft

namespace Sender

variable {sender next : Sender} {op : Op}

theorem maxSendUdpPayloadSize_le (sender : Sender) : sender.maxSendUdpPayloadSize ≤ 16383 := by
  have initial : minClientInitialLen ≤ 16383 := by decide
  rw [maxSendUdpPayloadSize]
  split
  · split
    · exact Nat.min_le_left _ _
    · exact initial
  · exact initial

theorem dgramMaxWritableLen_lt {dcidLen maxLen : Nat} {cryptoOverhead : Option Nat}
    (known : sender.dgramMaxWritableLen dcidLen cryptoOverhead = some maxLen) : maxLen < 2 ^ 14 := by
  have bound := sender.maxSendUdpPayloadSize_le
  rw [dgramMaxWritableLen] at known
  split at known
  · cases known
  · obtain ⟨overhead, _, known⟩ := Option.bind_eq_some_iff.mp known
    obtain ⟨_, rest⟩ := subChecked_spec known
    omega

/-- Every datagram that waits fits in a packet of the greatest size. -/
def ShortDgrams (sender : Sender) : Prop := ∀ data ∈ sender.dgramSendQueue.queue, data.length < 2 ^ 14

theorem ShortDgrams.of_subset (short : sender.ShortDgrams)
    (subset : next.dgramSendQueue.queue ⊆ sender.dgramSendQueue.queue) : next.ShortDgrams :=
  fun data member => short data (subset member)

theorem dgramSend_spec (sender : Sender) (dcidLen : Nat) (cryptoOverhead : Option Nat) (buf : List UInt8) :
    ∃ queue, (sender.dgramSend dcidLen cryptoOverhead buf).1 = { sender with dgramSendQueue := queue } ∧
      ∀ data ∈ queue.queue, data ∈ sender.dgramSendQueue.queue ∨ data.length < 2 ^ 14 := by
  rw [dgramSend]
  split
  · exact ⟨sender.dgramSendQueue, rfl, fun _ => .inl⟩
  · rename_i maxPayloadLen known
    split
    · exact ⟨sender.dgramSendQueue, rfl, fun _ => .inl⟩
    · rename_i fits
      split
      · exact ⟨sender.dgramSendQueue, rfl, fun _ => .inl⟩
      · rename_i queue pushed
        have bound := dgramMaxWritableLen_lt known
        refine ⟨queue, rfl, fun data member => ?_⟩
        rw [DatagramQueue.push_queue pushed] at member
        rcases List.mem_append.mp member with old | new
        · exact .inl old
        · cases List.mem_singleton.mp new
          exact .inr (by omega)

/-- No path looks for its MTU, and what may be written is no longer than `max_send_udp_payload_size` allows. -/
structure Capped (sender : Sender) : Prop where
  pmtud : ∀ pid path, sender.path pid = some path → path.pmtud = none
  out : sender.out.length ≤ 16383

theorem ShortDgrams.step (short : sender.ShortDgrams) (stepped : sender.step op = some next) : next.ShortDgrams := by
  cases op with
  | peerTransportParams maxUdpPayloadSize maxDatagramFrameSize =>
    cases stepped
    rw [processPeerTransportParams]
    split
    · exact short
    · rw [ShortDgrams]
      dsimp only
      rw [updateActive_queue]
      exact short
  | probeAcked pid probeSize =>
    rw [Sender.step, probeAcked] at stepped
    split at stepped
    · obtain ⟨_, _, stepped⟩ := Option.bind_eq_some_iff.mp stepped
      cases stepped
      exact short
    · cases stepped
      exact short
  | probeLost pid failedProbe =>
    rw [Sender.step, probeLost] at stepped
    split at stepped
    · obtain ⟨_, _, stepped⟩ := Option.bind_eq_some_iff.mp stepped
      cases stepped
      exact short
    · cases stepped
      exact short
  | revalidatePmtu =>
    cases stepped
    rw [ShortDgrams, revalidatePmtu, updateActive_queue]
    exact short
  | dgramSend dcidLen cryptoOverhead buf =>
    cases stepped
    obtain ⟨queue, same, each⟩ := dgramSend_spec sender dcidLen cryptoOverhead buf
    rw [same]
    exact fun data member => (each data member).elim (short data) id
  | dgramPurgeOutgoing purged =>
    cases stepped
    exact short.of_subset List.filter_sublist.subset
  | sendOnPath pid out credit =>
    cases stepped
    rw [ShortDgrams, sendOnPath_queue]
    exact short
  | sendSingle plan frames =>
    rw [Sender.step] at stepped
    split at stepped
    · cases stepped
      exact short
    · rename_i draft started
      obtain ⟨last, completed, rfl⟩ := Option.map_eq_some_iff.mp stepped
      have queue := Draft.run_queue completed
      rw [(Draft.start_spec started).queue] at queue
      exact short.of_subset queue
  | _ =>
    cases stepped
    exact short

section

variable (capped : sender.Capped)

include capped

theorem Capped.updateActive (change : SizedPath → SizedPath)
    (keeps : ∀ path, path.pmtud = none → (change path).pmtud = none) : (sender.updateActive change).Capped := by
  rw [Sender.updateActive]
  split
  · rename_i active _
    refine ⟨fun pid path known => ?_, capped.out⟩
    by_cases here : pid = active
    · rw [path_updatePath, if_pos here] at known
      obtain ⟨old, was, rfl⟩ := Option.map_eq_some_iff.mp known
      exact keeps old (capped.pmtud active old was)
    · rw [path_updatePath, if_neg here] at known
      exact capped.pmtud pid path known
  · exact capped

theorem Capped.setPath (pid : Nat) {path : Option SizedPath}
    (keeps : ∀ known ∈ path, known.pmtud = none) : (sender.setPath pid path).Capped := by
  refine ⟨fun other known is => ?_, capped.out⟩
  by_cases here : other = pid
  · rw [path_setPath, if_pos here] at is
    exact keeps known is
  · rw [path_setPath, if_neg here] at is
    exact capped.pmtud other known is

theorem Capped.sendOnPath (pid : Nat) (out : List UInt8) (credit : Option Nat) :
    (sender.sendOnPath pid out credit).Capped := by
  have cap := sender.maxSendUdpPayloadSize_le
  rw [Sender.sendOnPath]
  split
  · exact ⟨capped.pmtud, Nat.zero_le _⟩
  · rename_i path known
    split
    · exact ⟨capped.pmtud, Nat.zero_le _⟩
    · rw [capped.pmtud pid path known]
      refine ⟨capped.pmtud, ?_⟩
      dsimp only
      rw [List.length_take]
      cases credit with
      | none => dsimp only; omega
      | some maxSendBytes => dsimp only; omega

theorem Capped.finish (draft : Draft) : (sender.finish draft).Capped := by
  have drops : ∀ other : Sender, other.Capped → ∀ count, (other.out.drop count).length ≤ 16383 := by
    intro other capped count
    have within := capped.out
    rw [List.length_drop]
    omega
  rw [Sender.finish]
  by_cases probe : draft.isPmtudProbe = true
  · have changed := capped.updateActive
      (fun path => { path with pmtud := path.pmtud.map (·.setInFlight true) }) fun path unsought => by
        dsimp only
        rw [unsought]
        rfl
    rw [if_pos probe]
    exact ⟨changed.pmtud, drops _ changed _⟩
  · rw [if_neg probe]
    exact ⟨capped.pmtud, drops _ capped _⟩

theorem Capped.step (stepped : sender.step op = some next) : next.Capped := by
  cases op with
  | peerTransportParams maxUdpPayloadSize maxDatagramFrameSize =>
    cases stepped
    rw [processPeerTransportParams]
    split
    · exact capped
    · obtain ⟨pmtud, out⟩ := capped.updateActive (fun path =>
        { path with maxDatagramSize := min _ maxUdpPayloadSize }) fun _ unsought => unsought
      exact ⟨pmtud, out⟩
  | openPath pid =>
    cases stepped
    exact capped.setPath pid fun _ is => by cases is; rfl
  | closePath pid =>
    cases stepped
    exact capped.setPath pid fun _ is => by cases is
  | probeAcked pid probeSize =>
    rw [Sender.step, probeAcked] at stepped
    split at stepped
    · rename_i known
      cases capped.pmtud _ _ known
    · cases stepped
      exact capped
  | probeLost pid failedProbe =>
    rw [Sender.step, probeLost] at stepped
    split at stepped
    · rename_i known
      cases capped.pmtud _ _ known
    · cases stepped
      exact capped
  | revalidatePmtu =>
    cases stepped
    exact capped.updateActive _ fun path unsought => by rw [unsought]; rfl
  | dgramSend dcidLen cryptoOverhead buf =>
    cases stepped
    obtain ⟨queue, same, _⟩ := dgramSend_spec sender dcidLen cryptoOverhead buf
    rw [same]
    exact ⟨capped.pmtud, capped.out⟩
  | sendOnPath pid out credit =>
    cases stepped
    exact capped.sendOnPath pid out credit
  | sendSingle plan frames =>
    rw [Sender.step] at stepped
    split at stepped
    · cases stepped
      exact capped
    · rename_i draft started
      obtain ⟨last, completed, rfl⟩ := Option.map_eq_some_iff.mp stepped
      exact capped.finish last
  | _ =>
    cases stepped
    exact ⟨capped.pmtud, capped.out⟩

theorem Capped.probeSize (cwndAvailable : Nat) (isClosing : Bool) :
    sender.probeSize cwndAvailable isClosing = none := by
  rw [Sender.probeSize]
  cases known : sender.activePath with
  | none => rfl
  | some path =>
    obtain ⟨pid, _, known⟩ := Option.bind_eq_some_iff.mp known
    rw [Option.bind_eq_bind, Option.bind_some, capped.pmtud pid path known]
    rfl

theorem Capped.room : sender.room ≤ 16383 := by
  rw [Sender.room]
  split
  · rename_i pmtud known
    obtain ⟨path, known, is⟩ := Option.bind_eq_some_iff.mp known
    cases (capped.pmtud _ path known).symm.trans is
  · exact capped.out

end

variable {size queueLen : Nat} {maximumSupportedMtu : Option Nat} {ops : List Op}

theorem run_shortDgrams (reached : machine.run (start size maximumSupportedMtu queueLen) ops = some sender) :
    sender.ShortDgrams := machine.run_keeps (fun _ _ _ => ShortDgrams.step) (fun data member => by cases member) reached

theorem run_capped (reached : machine.run (start size none queueLen) ops = some sender) : sender.Capped := by
  refine machine.run_keeps (fun _ _ _ => Capped.step) ⟨fun pid path known => ?_, Nat.zero_le _⟩ reached
  dsimp only [Sender.path, start] at known
  split at known <;> cases known
  rfl

end Sender

end Quiche
