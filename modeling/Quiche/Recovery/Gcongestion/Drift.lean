import Quiche.Recovery.Gcongestion.Event

namespace Quiche

open Data Gcongestion

open Gcongestion.RecoveryEpoch (Settles isSent sentBytes unackedBytes)

namespace Gcongestion

def among (packets : List SentPacket) (numbers : List Nat) : List SentPacket :=
  packets.filter fun pkt => isSent pkt && decide (pkt.pktNum ∈ numbers)

def inFlightBytes (packets : List SentPacket) : Nat := (packets.map unackedBytes).sum

def groundedBytes (packets : List SentPacket) : Nat := (packets.map fun pkt => sentBytes pkt - unackedBytes pkt).sum

variable {packets others : List SentPacket}

theorem among_of_perm {chosen : List SentPacket} (distinct : (packets.map (·.pktNum)).Nodup)
    (settled : (packets.filter isSent).Perm (chosen ++ others)) :
    (among packets (chosen.map (·.pktNum))).Perm chosen := by
  have numbers : ((chosen ++ others).map (·.pktNum)).Nodup :=
    (settled.map SentPacket.pktNum).nodup_iff.mp (distinct.sublist (List.filter_sublist.map SentPacket.pktNum))
  rw [List.map_append, List.nodup_append'] at numbers
  have all : chosen.filter (fun pkt => decide (pkt.pktNum ∈ chosen.map (·.pktNum))) = chosen := by
    rw [List.filter_eq_self]
    intro pkt member
    exact decide_eq_true (List.mem_map_of_mem member)
  have nothing : others.filter (fun pkt => decide (pkt.pktNum ∈ chosen.map (·.pktNum))) = [] := by
    rw [List.filter_eq_nil_iff]
    intro pkt member picked
    exact numbers.2.2 (of_decide_eq_true picked) (List.mem_map_of_mem member)
  have filtered := settled.filter fun pkt => decide (pkt.pktNum ∈ chosen.map (·.pktNum))
  rw [List.filter_append, all, nothing, List.append_nil, List.filter_filter] at filtered
  refine (List.Perm.of_eq ?_).trans filtered
  refine List.filter_congr fun pkt _ => ?_
  exact Bool.and_comm _ _

theorem inFlightBytes_perm (perm : packets.Perm others) : inFlightBytes packets = inFlightBytes others :=
  (perm.map unackedBytes).sum_eq

theorem groundedBytes_perm (perm : packets.Perm others) : groundedBytes packets = groundedBytes others :=
  (perm.map _).sum_eq

theorem inFlightBytes_append (packets others : List SentPacket) :
    inFlightBytes (packets ++ others) = inFlightBytes packets + inFlightBytes others := by
  rw [inFlightBytes, List.map_append, List.sum_append]
  rfl

theorem unackedBytes_le (pkt : SentPacket) : unackedBytes pkt ≤ sentBytes pkt := by
  rw [unackedBytes, sentBytes]
  cases pkt.status with
  | sent timeSent ackEliciting inFlight hasData isPmtudProbe sentBytes frames =>
    dsimp only
    split
    · exact Nat.le_refl _
    · exact Nat.zero_le _
  | acked => exact Nat.le_refl _
  | lost => exact Nat.le_refl _

theorem sum_sentBytes (packets : List SentPacket) :
    (packets.map sentBytes).sum = inFlightBytes packets + groundedBytes packets := by
  induction packets with
  | nil => rfl
  | cons pkt packets ih =>
    have bound := unackedBytes_le pkt
    simp only [inFlightBytes, groundedBytes, List.map_cons, List.sum_cons] at ih ⊢
    omega

end Gcongestion

namespace Monitored

/-- The packets that the sampler does not hold. -/
def untracked (monitored : Monitored) (packets : List SentPacket) : List SentPacket :=
  packets.filter fun pkt => (monitored.sampler.connectionStateMap.stored pkt.pktNum).isNone

/-- What the sampler misses of the resolved packets makes up for what it subtracts of lost ones that were not in
flight, or both sides reach zero. -/
def Balanced (monitored : Monitored) (event : Event) : Prop :=
  let packets := (monitored.recovery.epochs event.epoch).sentPackets
  let acked := among packets (event.ackedPackets.map (·.pktNum))
  let lost := among packets (event.lostPackets.map (·.packetNumber))
  let probes := among packets event.neutered
  let resolved := inFlightBytes acked + inFlightBytes lost + inFlightBytes probes
  let missed := inFlightBytes (monitored.untracked acked) + inFlightBytes probes
  missed = groundedBytes lost ∨
    (monitored.bytesInFlight ≤ resolved ∧ monitored.bytesInFlight + missed ≤ resolved + groundedBytes lost)

/-- The sampler and the queues know the same sizes, under increasing numbers. -/
structure Coherent (monitored : Monitored) : Prop where
  sorted : monitored.sampler.connectionStateMap.Sorted
  keys : ∀ number ∈ monitored.sampler.connectionStateMap.map (·.1), number < monitored.nextPktNum
  increasing : ∀ epoch, ((monitored.recovery.epochs epoch).sentPackets.map (·.pktNum)).Pairwise (· < ·)
  numbers : ∀ epoch, ∀ number ∈ (monitored.recovery.epochs epoch).sentPackets.map (·.pktNum),
    number < monitored.nextPktNum
  sizes : ∀ number size, (number, some size) ∈ monitored.sampler.connectionStateMap →
    ∀ epoch, ∀ pkt ∈ (monitored.recovery.epochs epoch).sentPackets.filter isSent,
      pkt.pktNum = number → unackedBytes pkt = size

/-- Packets are resolved and forgotten, none is added. -/
structure Shrinks (monitored next : Monitored) : Prop where
  counter : next.nextPktNum = monitored.nextPktNum
  queues : ∀ epoch, ∃ resolved, Settles (monitored.recovery.epochs epoch).sentPackets
    (next.recovery.epochs epoch).sentPackets resolved
  sorted : next.sampler.connectionStateMap.Sorted
  keys : List.Sublist (next.sampler.connectionStateMap.map (·.1)) (monitored.sampler.connectionStateMap.map (·.1))
  held : ∀ number size, (number, some size) ∈ next.sampler.connectionStateMap →
    (number, some size) ∈ monitored.sampler.connectionStateMap

variable {mulF64 : Nat → Rat → Nat} {monitored middle next : Monitored} {epoch : Epoch}

theorem Shrinks.coherent (shrinks : Shrinks monitored next) (coherent : monitored.Coherent) : next.Coherent where
  sorted := shrinks.sorted
  keys number member := by
    rw [shrinks.counter]
    exact coherent.keys number (shrinks.keys.subset member)
  increasing epoch := by
    obtain ⟨resolved, swept⟩ := shrinks.queues epoch
    exact (coherent.increasing epoch).sublist swept.numbers
  numbers epoch number member := by
    obtain ⟨resolved, swept⟩ := shrinks.queues epoch
    rw [shrinks.counter]
    exact coherent.numbers epoch number (swept.numbers.subset member)
  sizes number size held epoch pkt member := by
    obtain ⟨resolved, swept⟩ := shrinks.queues epoch
    exact coherent.sizes number size (shrinks.held number size held) epoch pkt
      (swept.settled.mem_iff.mpr (List.mem_append_right _ member))

variable {recovery after : GRecovery} {packets acked : List SentPacket} {now : Int} {loss : LossDetectionResult}
  {newlyAcked : List Acked} {handshakeStatus : HandshakeStatus} {ops : List Recovery.Op}

theorem Shrinks.of_queues (coherent : monitored.Coherent) {event : Option Event}
    (queues : ∀ epoch, ∃ resolved, Settles (monitored.recovery.epochs epoch).sentPackets
      (recovery.epochs epoch).sentPackets resolved) :
    Shrinks monitored { monitored with recovery, event } :=
  ⟨rfl, queues, coherent.sorted, .refl _, fun _ _ held => held⟩

theorem settles_update {epochs : Epoch → RecoveryEpoch} {state : RecoveryEpoch} {resolved : List SentPacket}
    (settles : Settles (epochs epoch).sentPackets packets resolved) (same : state.sentPackets = packets) (other : Epoch) :
    ∃ resolved, Settles (epochs other).sentPackets (Function.update epochs epoch state other).sentPackets resolved := by
  by_cases is : other = epoch
  · subst is
    rw [Function.update_self, same]
    exact ⟨resolved, settles⟩
  · rw [Function.update_of_ne is]
    exact ⟨[], .refl _⟩

theorem sum_trackedBytes (coherent : monitored.Coherent)
    (sent : ∀ pkt ∈ packets, pkt ∈ (monitored.recovery.epochs epoch).sentPackets.filter isSent) :
    (packets.map fun pkt => monitored.sampler.trackedBytes pkt.pktNum).sum +
      inFlightBytes (monitored.untracked packets) = inFlightBytes packets := by
  induction packets with
  | nil => rfl
  | cons pkt packets ih =>
    obtain ⟨first, others⟩ := List.forall_mem_cons.mp sent
    have rest := ih others
    cases found : monitored.sampler.connectionStateMap.stored pkt.pktNum with
    | none =>
      simp only [untracked, inFlightBytes, List.filter_cons, found, Option.isNone_none, if_true, List.map_cons,
        List.sum_cons, BandwidthSampler.trackedBytes, Option.getD_none] at rest ⊢
      omega
    | some size =>
      have same := coherent.sizes pkt.pktNum size
        ((Bbr.ConnectionStateMap.stored_iff_mem coherent.sorted).mp found) epoch pkt first rfl
      simp only [untracked, inFlightBytes, List.filter_cons, found, Option.isNone_some, Bool.false_eq_true, if_false,
        List.map_cons, List.sum_cons, BandwidthSampler.trackedBytes, Option.getD_some] at rest ⊢
      omega

theorem detectAndRemoveLostPackets_spec (sorted : monitored.sampler.connectionStateMap.Sorted)
    (detected : monitored.detectAndRemoveLostPackets mulF64 epoch now = some (next, loss)) : ∃ lost probes,
      Settles (monitored.recovery.epochs epoch).sentPackets (next.recovery.epochs epoch).sentPackets (lost ++ probes) ∧
      (∀ other, ∃ resolved, Settles (monitored.recovery.epochs other).sentPackets
        (next.recovery.epochs other).sentPackets resolved) ∧
      next.recovery.lostReuse = lost.map (fun pkt => ⟨pkt.pktNum, sentBytes pkt⟩) ∧
      loss.pmtudLostPackets = probes.map (·.pktNum) ∧
      next.bytesInFlight = monitored.bytesInFlight - inFlightBytes (lost ++ probes) ∧
      next.nextPktNum = monitored.nextPktNum ∧ next.event = none ∧
      BandwidthSampler.Forgets monitored.sampler (probes.map (·.pktNum)) next.sampler := by
  obtain ⟨⟨recovery, result⟩, found, returned⟩ := Option.bind_eq_some_iff.mp detected
  obtain ⟨⟨state, lostReuse, counts⟩, looped, finished⟩ := Option.bind_eq_some_iff.mp found
  cases finished
  cases returned
  obtain ⟨lost, probes, settles, newlyLost, neutered, bytes⟩ := RecoveryEpoch.detectAndRemoveLostPackets_swept looped
  refine ⟨lost, probes, ?_, settles_update settles rfl, newlyLost, neutered, ?_, rfl, rfl, ?_⟩
  · simp only [GRecovery.setEpoch, Function.update_self]
    exact settles
  · refine (BytesInFlight.updateInFlightDuration_spec _ now).1.trans ?_
    show _ - (loss.lostBytes + loss.pmtudLostBytes) = _
    rw [bytes]
    rfl
  · dsimp only
    rw [neutered]
    exact (BandwidthSampler.neutered_forgets sorted _).1

theorem Shrinks.of_forgets {numbers : List Nat}
    (forgets : BandwidthSampler.Forgets monitored.sampler numbers next.sampler)
    (counter : next.nextPktNum = monitored.nextPktNum)
    (queues : ∀ epoch, ∃ resolved, Settles (monitored.recovery.epochs epoch).sentPackets
      (next.recovery.epochs epoch).sentPackets resolved) : Shrinks monitored next :=
  ⟨counter, queues, forgets.sorted, forgets.keys, fun number size held => ((forgets.held number size).mp held).1⟩

theorem Shrinks.trans (earlier : Shrinks monitored middle) (later : Shrinks middle next) : Shrinks monitored next where
  counter := later.counter.trans earlier.counter
  queues epoch := by
    obtain ⟨first, before⟩ := earlier.queues epoch
    obtain ⟨second, after⟩ := later.queues epoch
    exact ⟨first ++ second, before.trans after⟩
  sorted := later.sorted
  keys := later.keys.trans earlier.keys
  held number size held := earlier.held number size (later.held number size held)

section

variable (coherent : monitored.Coherent)

include coherent

theorem Coherent.distinct (epoch : Epoch) :
    ((monitored.recovery.epochs epoch).sentPackets.map (·.pktNum)).Nodup := (coherent.increasing epoch).imp Nat.ne_of_lt

theorem balanced_iff {event : Event} {lost probes others : List SentPacket}
    (whole : ((monitored.recovery.epochs event.epoch).sentPackets.filter isSent).Perm
      (acked ++ (lost ++ probes) ++ others))
    (ackedNumbers : event.ackedPackets.map (·.pktNum) = acked.map (·.pktNum))
    (lostNumbers : event.lostPackets.map (·.packetNumber) = lost.map (·.pktNum))
    (neutered : event.neutered = probes.map (·.pktNum)) :
    monitored.Balanced event ↔ inFlightBytes (monitored.untracked acked) + inFlightBytes probes = groundedBytes lost ∨
        (monitored.bytesInFlight ≤ inFlightBytes acked + inFlightBytes lost + inFlightBytes probes ∧
          monitored.bytesInFlight + (inFlightBytes (monitored.untracked acked) + inFlightBytes probes) ≤
            inFlightBytes acked + inFlightBytes lost + inFlightBytes probes + groundedBytes lost) := by
  have distinct := coherent.distinct event.epoch
  have isAcked : (among (monitored.recovery.epochs event.epoch).sentPackets (acked.map (·.pktNum))).Perm acked := by
    have order := whole
    rw [List.append_assoc] at order
    exact among_of_perm distinct order
  have isLost : (among (monitored.recovery.epochs event.epoch).sentPackets (lost.map (·.pktNum))).Perm lost := by
    have order := whole
    rw [List.append_assoc, List.append_assoc] at order
    exact among_of_perm distinct (order.trans (List.perm_append_comm_assoc _ _ _))
  have isProbe : (among (monitored.recovery.epochs event.epoch).sentPackets (probes.map (·.pktNum))).Perm probes := by
    have order := whole
    rw [← List.append_assoc, List.append_assoc] at order
    exact among_of_perm distinct (order.trans (List.perm_append_comm_assoc _ _ _))
  have missed : (monitored.untracked
      (among (monitored.recovery.epochs event.epoch).sentPackets (acked.map (·.pktNum)))).Perm
        (monitored.untracked acked) := isAcked.filter _
  rw [Balanced, ackedNumbers, lostNumbers, neutered]
  simp only [inFlightBytes_perm isAcked, inFlightBytes_perm isLost, inFlightBytes_perm isProbe, inFlightBytes_perm missed,
    groundedBytes_perm isLost]

theorem onCongestionEvent_spec
    (acks : Settles (monitored.recovery.epochs epoch).sentPackets (recovery.epochs epoch).sentPackets acked)
    (queues : ∀ other, ∃ resolved, Settles (monitored.recovery.epochs other).sentPackets
      (recovery.epochs other).sentPackets resolved)
    (bytes : recovery.bytesInFlight.bytesInFlight = monitored.bytesInFlight - inFlightBytes acked)
    (numbers : newlyAcked.map (·.pktNum) = acked.map (·.pktNum))
    (detected : { monitored with recovery : Monitored }.detectAndRemoveLostPackets mulF64 epoch now =
      some (middle, loss)) :
    Shrinks monitored (middle.onCongestionEvent monitored.bytesInFlight newlyAcked epoch loss) ∧
      ∃ event, (middle.onCongestionEvent monitored.bytesInFlight newlyAcked epoch loss).event = some event ∧
        (event.counts.bytesInFlight = middle.bytesInFlight ↔ monitored.Balanced event) := by
  have first : Shrinks monitored { monitored with recovery } := .of_queues coherent queues
  obtain ⟨lost, probes, settles, others, lostReuse, neutered, left, counter, _, forgets⟩ :=
    detectAndRemoveLostPackets_spec first.sorted detected
  have second : Shrinks monitored middle := first.trans (.of_forgets forgets counter others)
  have whole := (acks.trans settles).settled
  have distinct := coherent.distinct epoch
  have resolved : ((acked ++ (lost ++ probes)).map (·.pktNum)).Nodup := by
    have all := (whole.map SentPacket.pktNum).nodup_iff.mp (distinct.sublist (List.filter_sublist.map SentPacket.pktNum))
    rw [List.map_append] at all
    exact (List.nodup_append'.mp all).1
  rw [List.map_append, List.map_append, List.nodup_append', List.nodup_append', List.disjoint_append_right] at resolved
  obtain ⟨ackedOnce, ⟨lostOnce, _, _⟩, ackedLost, ackedProbes⟩ := resolved
  have lostNumbers : middle.recovery.lostReuse.map (·.packetNumber) = lost.map (·.pktNum) := by
    rw [lostReuse, List.map_map]
    rfl
  have lostBytes : (middle.recovery.lostReuse.map (·.bytesLost)).sum = inFlightBytes lost + groundedBytes lost := by
    rw [lostReuse, List.map_map]
    exact sum_sentBytes lost
  have ackedBytes : newlyAcked.map (fun packet => middle.sampler.trackedBytes packet.pktNum) =
      acked.map fun pkt => monitored.sampler.trackedBytes pkt.pktNum := by
    have by_number : newlyAcked.map (fun packet => middle.sampler.trackedBytes packet.pktNum) =
        acked.map fun pkt => middle.sampler.trackedBytes pkt.pktNum := by
      have mapped := congrArg (List.map middle.sampler.trackedBytes) numbers
      rw [List.map_map, List.map_map] at mapped
      exact mapped
    rw [by_number]
    refine List.map_congr_left fun pkt member => forgets.trackedBytes coherent.sorted ?_
    exact ackedProbes (List.mem_map_of_mem member)
  have apart : ∀ packet ∈ newlyAcked, packet.pktNum ∉ middle.recovery.lostReuse.map (·.packetNumber) := by
    intro packet member listed
    rw [lostNumbers] at listed
    refine ackedLost ?_ listed
    rw [← numbers]
    exact List.mem_map_of_mem member
  rw [← numbers] at ackedOnce
  obtain ⟨after, started, kept⟩ :=
    BandwidthSampler.onCongestionEventStart_spec forgets.sorted ackedOnce apart monitored.bytesInFlight
  rw [ackedBytes, lostBytes] at started
  simp only [onCongestionEvent, started]
  refine ⟨second.trans ⟨rfl, fun other => ⟨[], .refl _⟩, ?_, ?_, ?_⟩, _, rfl, ?_⟩
  · exact kept.sorted.sublist (List.dropWhile_sublist _)
  · exact ((List.dropWhile_sublist _).map _).trans kept.keys
  · intro number size held
    exact ((kept.held number size).mp ((List.dropWhile_sublist _).subset held)).1
  · have sent : ∀ pkt ∈ acked, pkt ∈ (monitored.recovery.epochs epoch).sentPackets.filter isSent :=
      fun pkt member => whole.mem_iff.mpr (List.mem_append_left _ (List.mem_append_left _ member))
    have tracked := sum_trackedBytes coherent sent
    have remains : middle.bytesInFlight = recovery.bytesInFlight.bytesInFlight - inFlightBytes (lost ++ probes) := left
    rw [inFlightBytes_append, bytes] at remains
    rw [balanced_iff coherent whole numbers lostNumbers neutered, remains]
    dsimp only
    omega

end

/-- An event counts the bytes in flight just when it is balanced. -/
structure Agrees (monitored next : Monitored) : Prop where
  shrinks : Shrinks monitored next
  counts : ∀ event, next.event = some event →
    (event.counts.bytesInFlight = next.bytesInFlight ↔ monitored.Balanced event)

theorem Agrees.of_shrinks (shrinks : Shrinks monitored next) (silent : next.event = none) : Agrees monitored next := by
  refine ⟨shrinks, fun event happened => ?_⟩
  rw [silent] at happened
  cases happened

theorem Agrees.of_queues (coherent : monitored.Coherent)
    (queues : ∀ epoch, ∃ resolved, Settles (monitored.recovery.epochs epoch).sentPackets
      (recovery.epochs epoch).sentPackets resolved) :
    Agrees monitored { monitored with recovery, event := none } :=
  .of_shrinks ⟨rfl, queues, coherent.sorted, .refl _, fun _ _ held => held⟩ rfl

theorem Agrees.of_event {prior : Nat}
    (counted : Shrinks monitored (middle.onCongestionEvent prior newlyAcked epoch loss) ∧
      ∃ event, (middle.onCongestionEvent prior newlyAcked epoch loss).event = some event ∧
        (event.counts.bytesInFlight = middle.bytesInFlight ↔ monitored.Balanced event))
    (epochs : recovery.epochs = middle.recovery.epochs) (bytes : recovery.bytesInFlight = middle.recovery.bytesInFlight) :
    Agrees monitored { middle.onCongestionEvent prior newlyAcked epoch loss with recovery } := by
  obtain ⟨⟨counter, queues, sorted, keys, held⟩, event, happened, counts⟩ := counted
  refine ⟨⟨counter, fun epoch => ?_, sorted, keys, held⟩, fun other is => ?_⟩
  · rw [epochs]
    exact queues epoch
  · cases happened.symm.trans is
    rw [bytesInFlight, bytes]
    exact counts

theorem onLossDetectionTimeout_agrees (coherent : monitored.Coherent)
    (expired : monitored.onLossDetectionTimeout mulF64 handshakeStatus now = some next) : Agrees monitored next := by
  rw [onLossDetectionTimeout] at expired
  dsimp only at expired
  split at expired
  · obtain ⟨⟨middle, loss⟩, detected, returned⟩ := Option.bind_eq_some_iff.mp expired
    cases returned
    have counted := onCongestionEvent_spec coherent (.refl _) (fun other => ⟨[], .refl _⟩) (Nat.sub_zero _).symm
      (List.map_nil.trans List.map_nil.symm) detected
    refine .of_event counted ?_ ?_
    · rw [GRecovery.setLossDetectionTimer_epochs]
      rfl
    · rw [GRecovery.setLossDetectionTimer_bytesInFlight]
      rfl
  · cases expired
    refine .of_queues coherent fun epoch => ?_
    rw [GRecovery.setLossDetectionTimer_epochs, GRecovery.onProbeTimeout]
    dsimp only [GRecovery.setEpoch]
    refine settles_update (.refl _) ?_ epoch
    rfl

theorem onSpuriousLosses_kept {result : AckedDetectionResult}
    (spurious : recovery.onSpuriousLosses result = some after) :
    after.epochs = recovery.epochs ∧ after.bytesInFlight = recovery.bytesInFlight := by
  rw [GRecovery.onSpuriousLosses] at spurious
  cases thresh : result.spuriousPktThresh with
  | none =>
    rw [thresh] at spurious
    cases spurious
    exact ⟨rfl, rfl⟩
  | some raised =>
    rw [thresh] at spurious
    obtain ⟨lossThresh, _, returned⟩ := Option.bind_eq_some_iff.mp spurious
    cases returned
    exact ⟨rfl, rfl⟩

theorem onAckReceived_agrees (coherent : monitored.Coherent) {ranges : RangeSet} {ackDelay : Nat}
    {skipPn : Option Nat} {wrap : Nat} {result : Except Error (OnAckReceivedOutcome × List Nat)}
    (received : monitored.onAckReceived mulF64 ranges ackDelay epoch handshakeStatus now skipPn wrap =
      some (next, result)) : Agrees monitored next := by
  obtain ⟨⟨state, newlyAcked, outcome⟩, swept, received⟩ := Option.bind_eq_some_iff.mp received
  obtain ⟨acked, settles, numbers, bytes⟩ := RecoveryEpoch.detectAndRemoveAckedPackets_swept swept
  have queues := settles_update settles rfl
  cases outcome with
  | error error =>
    cases received
    exact .of_queues coherent queues
  | ok outcome =>
    obtain ⟨recovery, spurious, received⟩ := Option.bind_eq_some_iff.mp received
    have kept : recovery.epochs = Function.update monitored.recovery.epochs epoch state ∧
        recovery.bytesInFlight = monitored.recovery.bytesInFlight := onSpuriousLosses_kept spurious
    obtain ⟨epochs, same⟩ := kept
    cases largest : newlyAcked.getLast? with
    | none =>
      rw [largest] at received
      cases received
      refine .of_queues coherent fun epoch => ?_
      rw [epochs]
      exact queues epoch
    | some largestNewlyAcked =>
      rw [largest] at received
      obtain ⟨⟨middle, loss⟩, detected, received⟩ := Option.bind_eq_some_iff.mp received
      cases received
      obtain ⟨largestAcked, stats, updated⟩ := GRecovery.onLargestNewlyAcked_spec recovery largestNewlyAcked outcome
        ackDelay epoch handshakeStatus now
      rw [updated] at detected
      have left : ((recovery.bytesInFlight.saturatingSubtract outcome.ackedBytes now).bytesInFlight) =
          monitored.bytesInFlight - inFlightBytes acked := by
        rw [same]
        refine (BytesInFlight.updateInFlightDuration_spec _ now).1.trans ?_
        rw [bytes outcome rfl]
        rfl
      have advanced : (recovery.setEpoch epoch
          { recovery.epochs epoch with largestAckedPacket := largestAcked }).epochs =
            Function.update monitored.recovery.epochs epoch { state with largestAckedPacket := largestAcked } := by
        rw [GRecovery.setEpoch, epochs, Function.update_idem, Function.update_self]
      refine .of_event (onCongestionEvent_spec coherent ?_ (fun other => ?_) left numbers detected) ?_ ?_
      · simp only [advanced, Function.update_self]
        exact settles
      · simp only [advanced]
        refine settles_update settles ?_ other
        rfl
      · rw [GRecovery.setLossDetectionTimer_epochs]
        rfl
      · rw [GRecovery.setLossDetectionTimer_bytesInFlight]
        rfl

theorem onPktNumSpaceDiscarded_agrees (coherent : monitored.Coherent) (epoch : Epoch) (handshakeStatus : HandshakeStatus)
    (now : Int) : Agrees monitored (monitored.onPktNumSpaceDiscarded epoch handshakeStatus now) := by
  refine .of_shrinks (.of_forgets (BandwidthSampler.neutered_forgets coherent.sorted _).1 rfl fun other => ?_) rfl
  rw [onPktNumSpaceDiscarded, GRecovery.onPktNumSpaceDiscarded]
  dsimp only
  rw [GRecovery.setLossDetectionTimer_epochs]
  have settles : Settles (monitored.recovery.epochs epoch).sentPackets
      (monitored.recovery.epochs epoch).discard.1.sentPackets
      ((monitored.recovery.epochs epoch).sentPackets.filter isSent) := by
    refine ⟨List.nil_sublist _, ?_⟩
    rw [RecoveryEpoch.discard, List.filter_nil, List.append_nil]
  exact settles_update settles rfl other

theorem start_coherent (initialRtt maxAckDelay : Nat) (enableRelaxedLossThreshold : Bool) (now : Int) :
    (new initialRtt maxAckDelay enableRelaxedLossThreshold now).Coherent :=
  ⟨.nil, nofun, fun _ => .nil, fun _ => nofun, nofun⟩

theorem onPacketSent_queues {pkt : Sent}
    (sent : recovery.onPacketSent pkt epoch handshakeStatus now = some after) (other : Epoch) :
    (after.epochs other).sentPackets = (recovery.epochs other).sentPackets ++ if other = epoch then
      [⟨pkt.pktNum, .sent pkt.timeSent pkt.ackEliciting pkt.inFlight pkt.hasData pkt.isPmtudProbe pkt.size pkt.frames⟩]
      else [] := by
  rw [GRecovery.onPacketSent] at sent
  dsimp only at sent
  split at sent
  · cases sent
  · cases sent
    have sameEpochs : ∀ value : GRecovery,
      ({ value with bytesSent := value.bytesSent + pkt.size }).epochs = value.epochs := fun _ => rfl
    by_cases same : other = epoch
    · subst same
      rw [if_pos rfl]
      split
      · simp only [GRecovery.setLossDetectionTimer_epochs, GRecovery.setEpoch, Function.update_self]
        split <;> rfl
      · simp only [GRecovery.setEpoch, Function.update_self]
        split <;> rfl
    · rw [if_neg same, List.append_nil]
      split
      · simp only [GRecovery.setLossDetectionTimer_epochs, GRecovery.setEpoch, Function.update_of_ne same]
      · simp only [GRecovery.setEpoch, Function.update_of_ne same]

theorem onPacketSent_coherent (coherent : monitored.Coherent) {pkt : Sent} (fresh : monitored.nextPktNum ≤ pkt.pktNum)
    (sent : monitored.onPacketSent pkt epoch handshakeStatus now = some next) : next.Coherent ∧ next.event = none := by
  obtain ⟨recovery, queued, sent⟩ := Option.bind_eq_some_iff.mp sent
  have queues := onPacketSent_queues queued
  have tracks : ∃ sampler, next = ⟨recovery, sampler, pkt.pktNum + 1, none⟩ ∧
      (sampler = monitored.sampler ∨ pkt.inFlight = true ∧ sampler.connectionStateMap =
        monitored.sampler.connectionStateMap ++ [(pkt.pktNum, some pkt.size)]) := by
    cases inFlight : pkt.inFlight with
    | false =>
      rw [inFlight] at sent
      cases sent
      exact ⟨_, rfl, .inl rfl⟩
    | true =>
      rw [inFlight] at sent
      obtain ⟨sampler, told, sent⟩ := Option.bind_eq_some_iff.mp sent
      cases sent
      refine ⟨sampler, rfl, ?_⟩
      change monitored.sampler.onPacketSent pkt.pktNum pkt.size pkt.hasData = some sampler at told
      rw [BandwidthSampler.onPacketSent] at told
      split at told
      · obtain ⟨map, inserted, rfl⟩ := Option.map_eq_some_iff.mp told
        rw [Bbr.ConnectionStateMap.insert] at inserted
        split at inserted
        · cases inserted
        · cases inserted
          exact .inr ⟨rfl, rfl⟩
      · cases told
        exact .inl rfl
  obtain ⟨sampler, rfl, tracked⟩ := tracks
  have older : ∀ number ∈ monitored.sampler.connectionStateMap.map (·.1), number < pkt.pktNum :=
    fun number member => Nat.lt_of_lt_of_le (coherent.keys number member) fresh
  have keys : sampler.connectionStateMap.map (·.1) = monitored.sampler.connectionStateMap.map (·.1) ∨
      sampler.connectionStateMap.map (·.1) = monitored.sampler.connectionStateMap.map (·.1) ++ [pkt.pktNum] := by
    rcases tracked with rfl | ⟨_, joined⟩
    · exact .inl rfl
    · rw [joined, List.map_append]
      exact .inr rfl
  have members : ∀ other, ∀ listedPkt ∈ (recovery.epochs other).sentPackets,
      listedPkt ∈ (monitored.recovery.epochs other).sentPackets ∨ listedPkt.pktNum = pkt.pktNum ∧
        (pkt.inFlight = true → unackedBytes listedPkt = pkt.size) := by
    intro other listedPkt member
    rw [queues, List.mem_append] at member
    rcases member with member | member
    · exact .inl member
    · split at member
      · rw [List.mem_singleton.mp member]
        exact .inr ⟨rfl, fun inFlight => by rw [unackedBytes, inFlight]; rfl⟩
      · cases member
  refine ⟨⟨?_, ?_, fun other => ?_, fun other => ?_, ?_⟩, rfl⟩
  · refine List.pairwise_map.mp ?_
    rcases keys with same | joined
    · rw [same]
      exact List.pairwise_map.mpr coherent.sorted
    · rw [joined]
      refine List.pairwise_append.mpr ⟨List.pairwise_map.mpr coherent.sorted, List.pairwise_singleton _ _, ?_⟩
      intro number member last is
      rw [List.mem_singleton.mp is]
      exact older number member
  · intro number member
    rcases keys with same | joined
    · rw [same] at member
      exact Nat.lt_succ_of_lt (older number member)
    · rw [joined, List.mem_append, List.mem_singleton] at member
      rcases member with member | rfl
      · exact Nat.lt_succ_of_lt (older number member)
      · exact Nat.lt_succ_self _
  · rw [queues, List.map_append]
    refine List.pairwise_append.mpr ⟨coherent.increasing other, ?_, ?_⟩
    · split
      · exact List.pairwise_singleton _ _
      · exact .nil
    · intro number member last is
      split at is
      · rw [List.map_singleton, List.mem_singleton] at is
        rw [is]
        exact Nat.lt_of_lt_of_le (coherent.numbers other number member) fresh
      · cases is
  · intro number member
    obtain ⟨listedPkt, listed, rfl⟩ := List.mem_map.mp member
    rcases members other listedPkt listed with member | ⟨same, _⟩
    · exact Nat.lt_succ_of_lt (Nat.lt_of_lt_of_le (coherent.numbers other _ (List.mem_map_of_mem member)) fresh)
    · rw [same]
      exact Nat.lt_succ_self _
  · intro number size held other listedPkt member same
    obtain ⟨listed, unresolved⟩ := List.mem_filter.mp member
    have old : (number, some size) ∈ monitored.sampler.connectionStateMap ∨
        number = pkt.pktNum ∧ pkt.inFlight = true ∧ size = pkt.size := by
      rcases tracked with rfl | ⟨inFlight, joined⟩
      · exact .inl held
      · change (number, some size) ∈ sampler.connectionStateMap at held
        rw [joined, List.mem_append, List.mem_singleton] at held
        rcases held with held | is
        · exact .inl held
        · cases is
          exact .inr ⟨rfl, inFlight, rfl⟩
    rcases old with held | ⟨rfl, inFlight, rfl⟩
    · rcases members other listedPkt listed with member | ⟨new, _⟩
      · exact coherent.sizes number size held other listedPkt (List.mem_filter.mpr ⟨member, unresolved⟩) same
      · have less := older number (List.mem_map_of_mem held)
        rw [← same, new] at less
        exact (Nat.lt_irrefl _ less).elim
    · rcases members other listedPkt listed with member | ⟨_, size⟩
      · have less := coherent.numbers other _ (List.mem_map_of_mem member)
        rw [same] at less
        exact (Nat.lt_irrefl _ (Nat.lt_of_lt_of_le less fresh)).elim
      · exact size inFlight

theorem step_coherent (coherent : monitored.Coherent) {op : Recovery.Op} (admits : monitored.Admits op)
    (stepped : monitored.step mulF64 op = some next) : next.Coherent ∧ ∀ event, next.event = some event →
      (event.counts.bytesInFlight = next.bytesInFlight ↔ monitored.Balanced event) := by
  have kept : ∀ {other : Monitored}, Agrees monitored other → other.Coherent ∧ ∀ event, other.event = some event →
      (event.counts.bytesInFlight = other.bytesInFlight ↔ monitored.Balanced event) :=
    fun agrees => ⟨agrees.shrinks.coherent coherent, agrees.counts⟩
  cases op with
  | packetSent pkt epoch handshakeStatus now =>
    obtain ⟨coherent, silent⟩ := onPacketSent_coherent coherent admits stepped
    refine ⟨coherent, fun event happened => ?_⟩
    rw [silent] at happened
    cases happened
  | ackReceived ranges ackDelay epoch handshakeStatus now skipPn wrap =>
    obtain ⟨⟨after, result⟩, received, rfl⟩ := Option.map_eq_some_iff.mp stepped
    exact kept (onAckReceived_agrees coherent received)
  | lossDetectionTimeout handshakeStatus now => exact kept (onLossDetectionTimeout_agrees coherent stepped)
  | pathChange epoch now =>
    obtain ⟨⟨after, loss⟩, detected, rfl⟩ := Option.map_eq_some_iff.mp stepped
    obtain ⟨lost, probes, _, queues, _, _, _, counter, silent, forgets⟩ :=
      detectAndRemoveLostPackets_spec coherent.sorted detected
    exact kept (.of_shrinks (.of_forgets forgets counter queues) silent)
  | pktNumSpaceDiscarded epoch handshakeStatus now =>
    cases stepped
    exact kept (onPktNumSpaceDiscarded_agrees coherent epoch handshakeStatus now)
  | getAckedFrames epoch =>
    cases stepped
    exact kept (.of_queues coherent (settles_update (.refl _) rfl))
  | getLostFrames epoch =>
    cases stepped
    exact kept (.of_queues coherent (settles_update (.refl _) rfl))
  | pingSent epoch =>
    cases stepped
    exact kept (.of_queues coherent (settles_update (.refl _) rfl))

theorem run_coherent {initialRtt maxAckDelay : Nat} {enableRelaxedLossThreshold : Bool} {final : Monitored}
    (guarded : (machine mulF64).Guarded Admits (new initialRtt maxAckDelay enableRelaxedLossThreshold now) ops)
    (returned : (machine mulF64).run (new initialRtt maxAckDelay enableRelaxedLossThreshold now) ops = some final) :
    final.Coherent := by
  have preserved : ∀ state op next, Coherent state → Admits state op → (machine mulF64).step state op = some next →
      Coherent next := fun state op next coherent admits stepped => (step_coherent coherent admits stepped).1
  exact (machine mulF64).run_keeps_of_guarded preserved (start_coherent initialRtt maxAckDelay
    enableRelaxedLossThreshold now) guarded returned

/-- The bytes in flight of a congestion event are those of loss recovery exactly if the event
is balanced. -/
theorem event_agrees (mulF64 : Nat → Rat → Nat) (initialRtt maxAckDelay : Nat) (enableRelaxedLossThreshold : Bool)
    (now : Int) {op : Recovery.Op} {event : Event}
    (guarded : (machine mulF64).Guarded Admits (new initialRtt maxAckDelay enableRelaxedLossThreshold now) ops)
    (returned : (machine mulF64).run (new initialRtt maxAckDelay enableRelaxedLossThreshold now) ops = some monitored)
    (admits : monitored.Admits op) (stepped : monitored.step mulF64 op = some next) (happened : next.event = some event) :
    event.counts.bytesInFlight = next.bytesInFlight ↔ monitored.Balanced event :=
  (step_coherent (run_coherent guarded returned) admits stepped).2 event happened

def packetSent (hasData : Bool) : Recovery.Op :=
  let frame := if hasData then .streamHeader 0 0 1100 false else .ping none
  .packetSent ⟨0, [frame], 0, none, none, 1200, true, true, hasData, false⟩ .application ⟨true, true, true⟩ 0

def ackReceived : Recovery.Op := .ackReceived (.inline ⟨[(0, 1)], 4⟩) 0 .application ⟨true, true, true⟩ 1000000 none 0

/-- With stream data, the acknowledgement is balanced. -/
theorem event_agrees_data : ∃ monitored next event,
      (machine fun duration _ => duration).run (new 333000000 0 false 0) [packetSent true] = some monitored ∧
      monitored.step (fun duration _ => duration) ackReceived = some next ∧ next.event = some event ∧
      event.counts.bytesInFlight = 0 ∧ next.bytesInFlight = 0 ∧ monitored.Balanced event := by
  obtain ⟨monitored, sent, next, received, event, happened, bytes, left⟩ :
      ∃ monitored ∈ (machine fun duration _ => duration).run (new 333000000 0 false 0) [packetSent true],
        ∃ next ∈ monitored.step (fun duration _ => duration) ackReceived, ∃ event ∈ next.event,
          event.counts.bytesInFlight = 0 ∧ next.bytesInFlight = 0 := by
    decide +kernel
  have exactly := event_agrees (fun duration _ => duration) 333000000 0 false 0 (by decide +kernel) sent
    (show monitored.Admits ackReceived from trivial) received happened
  exact ⟨monitored, next, event, sent, received, happened, bytes, left, exactly.mp (bytes.trans left.symm)⟩

/-- Without stream data, congestion control keeps the packet in flight after its acknowledgement. -/
theorem ping_stays_in_flight :
    (machine fun duration _ => duration).Guarded Admits (new 333000000 0 false 0) [packetSent false] ∧
      ∃ monitored next event,
        (machine fun duration _ => duration).run (new 333000000 0 false 0) [packetSent false] = some monitored ∧
        monitored.step (fun duration _ => duration) ackReceived = some next ∧ next.event = some event ∧
        event.counts.bytesInFlight = 1200 ∧ next.bytesInFlight = 0 := by
  refine ⟨by decide +kernel, ?_⟩
  obtain ⟨monitored, sent, next, received, event, happened, shown⟩ :
      ∃ monitored ∈ (machine fun duration _ => duration).run (new 333000000 0 false 0) [packetSent false],
        ∃ next ∈ monitored.step (fun duration _ => duration) ackReceived, ∃ event ∈ next.event,
          event.counts.bytesInFlight = 1200 ∧ next.bytesInFlight = 0 := by
    decide +kernel
  exact ⟨monitored, next, event, sent, received, happened, shown⟩

end Monitored

end Quiche
