import Quiche.Recovery.Gcongestion.Sampler
import Quiche.Recovery.History

namespace Quiche

open Data Gcongestion

namespace Gcongestion.RecoveryEpoch

def isSent (pkt : SentPacket) : Bool := !drained pkt

def leastUnacked (epoch : RecoveryEpoch) : Nat :=
  match epoch.sentPackets.find? isSent with
  | some pkt => pkt.pktNum
  | none => epoch.largestAckedPacket.getD 0 + 1

def sentBytes (pkt : SentPacket) : Nat :=
  match pkt.status with
  | .sent _ _ _ _ _ sentBytes _ => sentBytes
  | _ => 0

end Gcongestion.RecoveryEpoch

/-- What a congestion event was told of, and its byte counts. `neutered` are the PMTUD probes
that were declared lost. -/
structure Gcongestion.Event where
  epoch : Epoch
  ackedPackets : List Acked
  lostPackets : List Lost
  neutered : List Nat
  counts : CongestionEvent

/-- `GRecovery` together with the bandwidth sampler of its congestion control. `event` is the
congestion event of the last call, and packet numbers from `nextPktNum` on are unused. -/
structure Monitored where
  recovery : GRecovery
  sampler : BandwidthSampler
  nextPktNum : Nat
  event : Option Event

namespace Monitored

def new (initialRtt maxAckDelay : Nat) (enableRelaxedLossThreshold : Bool) (now : Int) : Monitored where
  recovery := .new initialRtt maxAckDelay enableRelaxedLossThreshold now
  sampler := .new
  nextPktNum := 0
  event := none

def bytesInFlight (monitored : Monitored) : Nat := monitored.recovery.bytesInFlight.bytesInFlight

def onPacketSent (monitored : Monitored) (pkt : Sent) (epoch : Epoch) (handshakeStatus : HandshakeStatus)
    (now : Int) : Option Monitored := do
  let recovery ← monitored.recovery.onPacketSent pkt epoch handshakeStatus now
  let sampler ←
    if pkt.inFlight then monitored.sampler.onPacketSent pkt.pktNum pkt.size pkt.hasData else some monitored.sampler
  return ⟨recovery, sampler, pkt.pktNum + 1, none⟩

def detectAndRemoveLostPackets (mulF64 : Nat → Rat → Nat) (monitored : Monitored) (epoch : Epoch) (now : Int) :
    Option (Monitored × LossDetectionResult) := do
  let (recovery, loss) ← monitored.recovery.detectAndRemoveLostPackets mulF64 epoch now
  let sampler := loss.pmtudLostPackets.foldl BandwidthSampler.onPacketNeutered monitored.sampler
  return ({ monitored with recovery, sampler, event := none }, loss)

/-- `on_congestion_event`, which ignores the bytes in flight that it is passed. -/
def onCongestionEvent (monitored : Monitored) (priorInFlight : Nat) (ackedPackets : List Acked) (epoch : Epoch)
    (loss : LossDetectionResult) : Monitored :=
  let lostPackets := monitored.recovery.lostReuse
  let (sampler, counts) := onCongestionEventStart monitored.sampler ackedPackets lostPackets priorInFlight
  { monitored with
    sampler := sampler.removeObsoletePackets (monitored.recovery.epochs epoch).leastUnacked
    event := some ⟨epoch, ackedPackets, lostPackets, loss.pmtudLostPackets, counts⟩ }

def onAckReceived (mulF64 : Nat → Rat → Nat) (monitored : Monitored) (peerSentAckRanges : RangeSet)
    (ackDelay : Nat) (epoch : Epoch) (handshakeStatus : HandshakeStatus) (now : Int) (skipPn : Option Nat)
    (wrap : Nat) : Option (Monitored × Except Error (OnAckReceivedOutcome × List Nat)) := do
  let priorInFlight := monitored.bytesInFlight
  let recovery := monitored.recovery
  let (state, newlyAcked, outcome) ← (recovery.epochs epoch).detectAndRemoveAckedPackets peerSentAckRanges skipPn wrap
  let recovery := { recovery.setEpoch epoch state with newlyAcked }
  match outcome with
  | .error error => return ({ monitored with recovery, event := none }, .error error)
  | .ok result =>
    let recovery ← recovery.onSpuriousLosses result
    match newlyAcked.getLast? with
    | none =>
      return ({ monitored with recovery, event := none },
        .ok (⟨0, 0, result.ackedBytes, result.spuriousLosses⟩, []))
    | some largestNewlyAcked =>
      let recovery := recovery.onLargestNewlyAcked largestNewlyAcked result ackDelay epoch handshakeStatus now
      let (monitored, loss) ← { monitored with recovery : Monitored }.detectAndRemoveLostPackets mulF64 epoch now
      let monitored := monitored.onCongestionEvent priorInFlight newlyAcked epoch loss
      let recovery := monitored.recovery
      let recovery := { recovery with ptoCount := 0, lostCount := recovery.lostCount + loss.lostPackets }
      let recovery := recovery.setLossDetectionTimer handshakeStatus now
      return ({ monitored with recovery },
        .ok (⟨loss.lostPackets, loss.lostBytes, result.ackedBytes, result.spuriousLosses⟩, recovery.lostPkts loss))

def onLossDetectionTimeout (mulF64 : Nat → Rat → Nat) (monitored : Monitored) (handshakeStatus : HandshakeStatus)
    (now : Int) : Option Monitored :=
  let (earliestLossTime, epoch) := monitored.recovery.lossTimeAndSpace
  if earliestLossTime.isSome then do
    let priorInFlight := monitored.bytesInFlight
    let (monitored, loss) ← monitored.detectAndRemoveLostPackets mulF64 epoch now
    let monitored := monitored.onCongestionEvent priorInFlight [] epoch loss
    let recovery := { monitored.recovery with lostCount := monitored.recovery.lostCount + loss.lostPackets }
    return { monitored with recovery := recovery.setLossDetectionTimer handshakeStatus now }
  else
    let recovery := monitored.recovery.onProbeTimeout (monitored.recovery.probeSpace handshakeStatus now)
    some { monitored with recovery := recovery.setLossDetectionTimer handshakeStatus now, event := none }

def onPktNumSpaceDiscarded (monitored : Monitored) (epoch : Epoch) (handshakeStatus : HandshakeStatus) (now : Int) :
    Monitored :=
  let discarded := (monitored.recovery.epochs epoch).sentPackets.filter RecoveryEpoch.isSent
  { monitored with
    recovery := monitored.recovery.onPktNumSpaceDiscarded epoch handshakeStatus now
    sampler := (discarded.map (·.pktNum)).foldl BandwidthSampler.onPacketNeutered monitored.sampler
    event := none }

open Recovery (Op)

/-- A call that fails with an error does return here. -/
def step (mulF64 : Nat → Rat → Nat) (monitored : Monitored) : Op → Option Monitored
  | .packetSent pkt epoch handshakeStatus now => monitored.onPacketSent pkt epoch handshakeStatus now
  | .ackReceived ranges ackDelay epoch handshakeStatus now skipPn wrap =>
    (monitored.onAckReceived mulF64 ranges ackDelay epoch handshakeStatus now skipPn wrap).map Prod.fst
  | .lossDetectionTimeout handshakeStatus now => monitored.onLossDetectionTimeout mulF64 handshakeStatus now
  | .pathChange epoch now => (monitored.detectAndRemoveLostPackets mulF64 epoch now).map Prod.fst
  | .pktNumSpaceDiscarded epoch handshakeStatus now =>
    some (monitored.onPktNumSpaceDiscarded epoch handshakeStatus now)
  | .getAckedFrames epoch =>
    some { monitored with recovery := (monitored.recovery.getAckedFrames epoch).1, event := none }
  | .getLostFrames epoch =>
    some { monitored with recovery := (monitored.recovery.getLostFrames epoch).1, event := none }
  | .pingSent epoch => some { monitored with recovery := monitored.recovery.pingSent epoch, event := none }

def machine (mulF64 : Nat → Rat → Nat) : Machine Monitored Op := ⟨step mulF64⟩

/-- Packet numbers increase. -/
def Admits (monitored : Monitored) : Op → Prop
  | .packetSent pkt .. => monitored.nextPktNum ≤ pkt.pktNum
  | _ => True

instance (monitored : Monitored) (op : Op) : Decidable (monitored.Admits op) := by
  rcases op with ⟨⟩
  case packetSent => exact inferInstanceAs (Decidable (_ ≤ _))
  all_goals exact .isTrue trivial

end Monitored

namespace Gcongestion.RecoveryEpoch

variable {old middle new : List SentPacket} {first second : List SentPacket}

/-- The resolved packets leave those that are in flight. -/
structure Settles (old new resolved : List SentPacket) : Prop where
  numbers : List.Sublist (new.map (·.pktNum)) (old.map (·.pktNum))
  settled : (old.filter isSent).Perm (resolved ++ new.filter isSent)

theorem Settles.refl (packets : List SentPacket) : Settles packets packets [] := ⟨.refl _, .refl _⟩

theorem Settles.trans (earlier : Settles old middle first) (later : Settles middle new second) :
    Settles old new (first ++ second) where
  numbers := later.numbers.trans earlier.numbers
  settled := by
    rw [List.append_assoc]
    exact earlier.settled.trans (later.settled.append_left _)

section

variable (loop : Settles old new first)

include loop

theorem Settles.cons_open (pkt : SentPacket) :
    Settles (pkt :: old) (pkt :: new) first := by
  refine ⟨loop.numbers.cons_cons _, ?_⟩
  by_cases sent : isSent pkt = true
  · rw [List.filter_cons_of_pos sent, List.filter_cons_of_pos sent]
    exact (loop.settled.cons pkt).trans List.perm_middle.symm
  · rw [List.filter_cons_of_neg sent, List.filter_cons_of_neg sent]
    exact loop.settled

theorem Settles.cons_settled {pkt after : SentPacket} (number : after.pktNum = pkt.pktNum)
    (before : isSent pkt = false) (done : isSent after = false) : Settles (pkt :: old) (after :: new) first := by
  refine ⟨?_, ?_⟩
  · rw [List.map_cons, List.map_cons, number]
    exact loop.numbers.cons_cons _
  · rw [List.filter_cons_of_neg (Bool.eq_false_iff.mp before), List.filter_cons_of_neg (Bool.eq_false_iff.mp done)]
    exact loop.settled

theorem Settles.cons_resolved {pkt after : SentPacket} (number : after.pktNum = pkt.pktNum)
    (before : isSent pkt = true) (done : isSent after = false) : Settles (pkt :: old) (after :: new) (pkt :: first) := by
  refine ⟨?_, ?_⟩
  · rw [List.map_cons, List.map_cons, number]
    exact loop.numbers.cons_cons _
  · rw [List.filter_cons_of_pos before, List.filter_cons_of_neg (Bool.eq_false_iff.mp done)]
    exact loop.settled.cons pkt

theorem Settles.append_left (packets : List SentPacket) :
    Settles (packets ++ old) (packets ++ new) first := by
  induction packets with
  | nil => exact loop
  | cons pkt packets ih => exact ih.cons_open pkt

end

theorem Settles.of_drop {start : Nat} (loop : Settles (old.drop start) new first) :
    Settles old (old.take start ++ new) first := by
  have whole := loop.append_left (old.take start)
  rwa [List.take_append_drop] at whole

theorem Settles.drain (packets : List SentPacket) : Settles packets (packets.dropWhile drained) [] := by
  induction packets with
  | nil => exact .refl _
  | cons pkt packets ih =>
    by_cases resolved : drained pkt = true
    · rw [List.dropWhile_cons_of_pos resolved]
      refine ⟨ih.numbers.cons _, ?_⟩
      rw [List.filter_cons_of_neg (by rw [isSent, resolved]; nofun)]
      exact ih.settled
    · rw [List.dropWhile_cons_of_neg resolved]
      exact .refl _

/-- The acknowledged packets are counted. -/
structure AckSweep.Counts (before after : AckSweep) (acked : List SentPacket) : Prop where
  numbers : after.newlyAcked.map (·.pktNum) = before.newlyAcked.map (·.pktNum) ++ acked.map (·.pktNum)
  bytes : after.result.ackedBytes = before.result.ackedBytes + (acked.map unackedBytes).sum

theorem AckSweep.Counts.refl (sweep : AckSweep) : sweep.Counts sweep [] := ⟨(List.append_nil _).symm, rfl⟩

variable {after before : AckSweep} {largestAcked stop wrap lossDelay : Nat} {skipPn pktThresh : Option Nat}
  {epoch state : RecoveryEpoch}

theorem AckSweep.Counts.trans {between : AckSweep} (earlier : before.Counts between first)
    (later : between.Counts after second) : before.Counts after (first ++ second) where
  numbers := by rw [later.numbers, earlier.numbers, List.map_append, List.append_assoc]
  bytes := by rw [later.bytes, earlier.bytes, List.map_append, List.sum_append, Nat.add_assoc]

theorem ackPacket_cases {pkt next : SentPacket} {goesOn : Bool}
    (turn : ackPacket largestAcked stop before pkt = some (after, next, goesOn)) :
    (goesOn = true ∧ next.pktNum = pkt.pktNum ∧ isSent pkt = true ∧ isSent next = false ∧ before.Counts after [pkt]) ∨
    (goesOn = true ∧ next.pktNum = pkt.pktNum ∧ isSent pkt = false ∧ isSent next = false ∧ before.Counts after []) ∨
    (goesOn = false ∧ next = pkt ∧ after = before) := by
  rw [ackPacket] at turn
  split at turn
  · obtain ⟨pktNum, status⟩ := pkt
    cases status with
    | sent timeSent ackEliciting inFlight hasData isPmtudProbe sentBytes frames =>
      cases inFlight with
      | true =>
        obtain ⟨pktsInFlight, _, turn⟩ := Option.bind_eq_some_iff.mp turn
        cases turn
        exact .inl ⟨rfl, rfl, rfl, rfl, List.map_append, rfl⟩
      | false =>
        cases turn
        exact .inl ⟨rfl, rfl, rfl, rfl, List.map_append, rfl⟩
    | acked =>
      cases turn
      exact .inr (.inl ⟨rfl, rfl, rfl, rfl, .refl _⟩)
    | lost =>
      obtain ⟨distance, _, turn⟩ := Option.bind_eq_some_iff.mp turn
      cases turn
      exact .inr (.inl ⟨rfl, rfl, rfl, rfl, (List.append_nil _).symm, rfl⟩)
  · cases turn
    exact .inr (.inr ⟨rfl, rfl, rfl⟩)

theorem ackPackets_swept (looped : sweep (ackPacket largestAcked stop) before old = some (after, new)) :
    ∃ acked, Settles old new acked ∧ before.Counts after acked := by
  induction old generalizing before new with
  | nil =>
    cases looped
    exact ⟨[], .refl _, .refl _⟩
  | cons pkt rest ih =>
    rw [sweep] at looped
    obtain ⟨⟨between, next, goesOn⟩, turn, continued⟩ := Option.bind_eq_some_iff.mp looped
    rcases ackPacket_cases turn with ⟨rfl, number, sent, done, counts⟩ | ⟨rfl, number, sent, done,
      counts⟩ | ⟨rfl, rfl, rfl⟩
    · obtain ⟨⟨last, swept⟩, later, finished⟩ := Option.bind_eq_some_iff.mp continued
      cases finished
      obtain ⟨acked, loop, counted⟩ := ih later
      exact ⟨pkt :: acked, loop.cons_resolved number sent done, counts.trans counted⟩
    · obtain ⟨⟨last, swept⟩, later, finished⟩ := Option.bind_eq_some_iff.mp continued
      cases finished
      obtain ⟨acked, loop, counted⟩ := ih later
      exact ⟨acked, loop.cons_settled number sent done, counts.trans counted⟩
    · cases continued
      exact ⟨[], .refl _, .refl _⟩

theorem ackRanges_swept {ranges : List (Nat × Nat)} {outcome : Except Error Unit}
    (looped : ackRanges SentPacket.pktNum (ackPacket largestAcked) skipPn wrap ranges before old =
      some ((after, new), outcome)) :
    ∃ acked, Settles old new acked ∧ before.Counts after acked := by
  induction ranges generalizing before old with
  | nil =>
    cases looped
    exact ⟨[], .refl _, .refl _⟩
  | cons range rest ih =>
    rw [ackRanges] at looped
    split at looped
    · cases looped
      exact ⟨[], .refl _, .refl _⟩
    · obtain ⟨⟨between, swept⟩, loop, looped⟩ := Option.bind_eq_some_iff.mp looped
      obtain ⟨earlier, sweptFirst, counts⟩ := ackPackets_swept loop
      obtain ⟨later, others, counted⟩ := ih looped
      exact ⟨earlier ++ later, sweptFirst.of_drop.trans others, counts.trans counted⟩

/-- The lost packets and the lost probes are counted. -/
structure LossSweep.Counts (before after : LossSweep) (lost probes : List SentPacket) : Prop where
  packets : after.newlyLost = before.newlyLost ++ lost.map fun pkt => ⟨pkt.pktNum, RecoveryEpoch.sentBytes pkt⟩
  bytes : after.lostBytes = before.lostBytes + (lost.map unackedBytes).sum
  neutered : after.pmtudLostPackets = before.pmtudLostPackets ++ probes.map (·.pktNum)
  probeBytes : after.pmtudLostBytes = before.pmtudLostBytes + (probes.map unackedBytes).sum

theorem LossSweep.Counts.refl (sweep : LossSweep) : sweep.Counts sweep [] [] :=
  ⟨(List.append_nil _).symm, rfl, (List.append_nil _).symm, rfl⟩

theorem LossSweep.Counts.trans {before between after : LossSweep} {probes others : List SentPacket}
    (earlier : before.Counts between first probes) (later : between.Counts after second others) :
    before.Counts after (first ++ second) (probes ++ others) where
  packets := by rw [later.packets, earlier.packets, List.map_append, List.append_assoc]
  bytes := by rw [later.bytes, earlier.bytes, List.map_append, List.sum_append, Nat.add_assoc]
  neutered := by rw [later.neutered, earlier.neutered, List.map_append, List.append_assoc]
  probeBytes := by rw [later.probeBytes, earlier.probeBytes, List.map_append, List.sum_append, Nat.add_assoc]

theorem losePacket_cases {lostSendTime : Int} {before after : LossSweep} {pkt next : SentPacket} {goesOn : Bool}
    (turn : losePacket lossDelay pktThresh lostSendTime largestAcked before pkt = some (after, next, goesOn)) :
    (next.pktNum = pkt.pktNum ∧ isSent pkt = true ∧ isSent next = false ∧
      (before.Counts after [pkt] [] ∨ before.Counts after [] [pkt])) ∨ (next = pkt ∧ before.Counts after [] []) := by
  rw [losePacket] at turn
  split at turn
  · cases turn
    exact .inr ⟨rfl, .refl _⟩
  · obtain ⟨pktNum, status⟩ := pkt
    cases status with
    | sent timeSent ackEliciting inFlight hasData isPmtudProbe sentBytes frames =>
      dsimp only at turn
      split at turn
      · refine .inl ?_
        cases inFlight with
        | true =>
          obtain ⟨pktsInFlight, _, turn⟩ := Option.bind_eq_some_iff.mp turn
          cases isPmtudProbe with
          | true =>
            cases turn
            exact ⟨rfl, rfl, rfl, .inr ⟨(List.append_nil _).symm, rfl, rfl, rfl⟩⟩
          | false =>
            cases turn
            exact ⟨rfl, rfl, rfl, .inl ⟨rfl, rfl, (List.append_nil _).symm, rfl⟩⟩
        | false =>
          cases turn
          exact ⟨rfl, rfl, rfl, .inl ⟨rfl, rfl, (List.append_nil _).symm, rfl⟩⟩
      · cases turn
        exact .inr ⟨rfl, (List.append_nil _).symm, rfl, (List.append_nil _).symm, rfl⟩
    | acked =>
      cases turn
      exact .inr ⟨rfl, .refl _⟩
    | lost =>
      cases turn
      exact .inr ⟨rfl, .refl _⟩

theorem losePackets_swept {lostSendTime : Int} {before after : LossSweep}
    (looped : sweep (losePacket lossDelay pktThresh lostSendTime largestAcked) before old = some (after, new)) :
    ∃ lost probes, Settles old new (lost ++ probes) ∧ before.Counts after lost probes := by
  induction old generalizing before new with
  | nil =>
    cases looped
    exact ⟨[], [], .refl _, .refl _⟩
  | cons pkt rest ih =>
    rw [sweep] at looped
    obtain ⟨⟨between, next, goesOn⟩, turn, continued⟩ := Option.bind_eq_some_iff.mp looped
    have remains : ∃ swept lost probes, new = next :: swept ∧ Settles rest swept (lost ++ probes) ∧
        between.Counts after lost probes := by
      cases goesOn with
      | true =>
        obtain ⟨⟨last, swept⟩, later, finished⟩ := Option.bind_eq_some_iff.mp continued
        cases finished
        obtain ⟨lost, probes, others, counted⟩ := ih later
        exact ⟨swept, lost, probes, rfl, others, counted⟩
      | false =>
        cases continued
        exact ⟨rest, [], [], rfl, .refl _, .refl _⟩
    obtain ⟨swept, lost, probes, rfl, others, counted⟩ := remains
    rcases losePacket_cases turn with ⟨number, sent, done, counts | counts⟩ | ⟨rfl, counts⟩
    · exact ⟨pkt :: lost, probes, others.cons_resolved number sent done, counts.trans counted⟩
    · obtain ⟨numbers, settled⟩ := others.cons_resolved number sent done
      exact ⟨lost, pkt :: probes, ⟨numbers, settled.trans (List.perm_middle.symm.append_right _)⟩, counts.trans counted⟩
    · exact ⟨lost, probes, others.cons_open _, counts.trans counted⟩

theorem detectAndRemoveAckedPackets_swept {ranges : RangeSet}
    {newlyAcked : List Acked} {outcome : Except Error AckedDetectionResult}
    (detected : epoch.detectAndRemoveAckedPackets ranges skipPn wrap = some (state, newlyAcked, outcome)) :
    ∃ acked, Settles epoch.sentPackets state.sentPackets acked ∧ newlyAcked.map (·.pktNum) = acked.map (·.pktNum) ∧
      ∀ result, outcome = .ok result → result.ackedBytes = (acked.map unackedBytes).sum := by
  obtain ⟨largest, _, detected⟩ := Option.bind_eq_some_iff.mp detected
  obtain ⟨⟨⟨after, packets⟩, looped⟩, loop, detected⟩ := Option.bind_eq_some_iff.mp detected
  obtain ⟨acked, swept, counts⟩ := ackRanges_swept loop
  cases looped with
  | error error =>
    cases detected
    exact ⟨acked, swept, counts.numbers, nofun⟩
  | ok =>
    cases detected
    refine ⟨acked, ?_, counts.numbers, ?_⟩
    · have drained := swept.trans (.drain packets)
      rwa [List.append_nil] at drained
    · rintro result ⟨⟩
      exact counts.bytes.trans (Nat.zero_add _)

theorem detectAndRemoveLostPackets_swept {now : Int} {newlyLost : List Lost} {loss : LossDetectionResult}
    (detected : epoch.detectAndRemoveLostPackets lossDelay pktThresh now = some (state, newlyLost, loss)) :
    ∃ lost probes, Settles epoch.sentPackets state.sentPackets (lost ++ probes) ∧
      newlyLost = lost.map (fun pkt => ⟨pkt.pktNum, sentBytes pkt⟩) ∧ loss.pmtudLostPackets = probes.map (·.pktNum) ∧
      loss.lostBytes + loss.pmtudLostBytes = ((lost ++ probes).map unackedBytes).sum := by
  obtain ⟨⟨after, packets⟩, loop, detected⟩ := Option.bind_eq_some_iff.mp detected
  obtain ⟨lost, probes, swept, counts⟩ := losePackets_swept loop
  cases detected
  refine ⟨lost, probes, swept, counts.packets, counts.neutered, ?_⟩
  rw [List.map_append, List.sum_append, counts.bytes, counts.probeBytes, Nat.zero_add, Nat.zero_add]

end Gcongestion.RecoveryEpoch

end Quiche
