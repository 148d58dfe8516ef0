import Quiche.Recovery.Gcongestion.Drift

namespace Quiche

open Data Gcongestion

open Gcongestion.RecoveryEpoch (Settles isSent)

namespace Gcongestion

def carries (pkt : SentPacket) : Bool :=
  match pkt.status with
  | .sent _ _ inFlight hasData _ _ _ => inFlight && hasData
  | _ => false

theorem isSent_of_carries {pkt : SentPacket} (carrying : carries pkt = true) : isSent pkt = true := by
  obtain ⟨pktNum, status⟩ := pkt
  cases status with
  | sent timeSent ackEliciting inFlight hasData isPmtudProbe sentBytes frames => rfl
  | acked => cases carrying
  | lost => cases carrying

end Gcongestion

namespace Monitored

variable {mulF64 : Nat → Rat → Nat} {monitored middle next : Monitored} {epoch : Epoch}

/-- The sampler knows the packet. -/
def Stored (monitored : Monitored) (number : Nat) : Prop :=
  ∃ size, (number, some size) ∈ monitored.sampler.connectionStateMap

/-- The packet is outstanding in the space. -/
def OutstandingIn (monitored : Monitored) (epoch : Epoch) (number : Nat) : Prop :=
  ∃ pkt ∈ (monitored.recovery.epochs epoch).sentPackets, carries pkt = true ∧ pkt.pktNum = number

/-- The packet is outstanding. -/
def Outstanding (monitored : Monitored) (number : Nat) : Prop := ∃ epoch, monitored.OutstandingIn epoch number

/-- The sampler knows the packets that are outstanding, and no other. -/
def Exact (monitored : Monitored) : Prop := ∀ number, monitored.Stored number ↔ monitored.Outstanding number

/-- No number is used in two spaces. -/
def Apart (monitored : Monitored) : Prop :=
  ∀ epoch other, epoch ≠ other → ∀ number ∈ (monitored.recovery.epochs epoch).sentPackets.map (·.pktNum),
    number ∉ (monitored.recovery.epochs other).sentPackets.map (·.pktNum)

/-- The recovery and its sampler are coherent, and the spaces apart. -/
structure Kept (monitored : Monitored) : Prop where
  coherent : monitored.Coherent
  apart : monitored.Apart

/-- A call resolves packets of one space, forgets some in the sampler, and with them those below `least`. -/
structure Resolves (monitored next : Monitored) (epoch : Epoch) (resolved : List SentPacket) (forgotten : List Nat)
    (least : Nat) : Prop where
  queue : Settles (monitored.recovery.epochs epoch).sentPackets (next.recovery.epochs epoch).sentPackets resolved
  others : ∀ other, other ≠ epoch →
    (next.recovery.epochs other).sentPackets = (monitored.recovery.epochs other).sentPackets
  held : ∀ number, next.Stored number ↔ monitored.Stored number ∧ number ∉ forgotten ∧ least ≤ number

theorem Apart.shrinks (apart : monitored.Apart) (shrinks : Shrinks monitored next) : next.Apart := by
  intro epoch other differ number member listed
  obtain ⟨_, before⟩ := shrinks.queues epoch
  obtain ⟨_, after⟩ := shrinks.queues other
  exact apart epoch other differ number (before.numbers.subset member) (after.numbers.subset listed)

variable {resolved : List SentPacket}

theorem settles_outstanding {old new : List SentPacket} (distinct : (old.map (·.pktNum)).Nodup)
    (settles : Settles old new resolved) (number : Nat) : (∃ pkt ∈ new, carries pkt = true ∧ pkt.pktNum = number) ↔
      (∃ pkt ∈ old, carries pkt = true ∧ pkt.pktNum = number) ∧ number ∉ resolved.map (·.pktNum) := by
  have once : ((resolved ++ new.filter isSent).map (·.pktNum)).Nodup :=
    (settles.settled.map SentPacket.pktNum).nodup_iff.mp (distinct.sublist (List.filter_sublist.map SentPacket.pktNum))
  rw [List.map_append, List.nodup_append'] at once
  constructor
  · rintro ⟨pkt, member, carrying, rfl⟩
    have sent : pkt ∈ new.filter isSent := List.mem_filter.mpr ⟨member, isSent_of_carries carrying⟩
    have before := settles.settled.mem_iff.mpr (List.mem_append_right resolved sent)
    exact ⟨⟨pkt, (List.mem_filter.mp before).1, carrying, rfl⟩,
      fun listed => once.2.2 listed (List.mem_map_of_mem sent)⟩
  · rintro ⟨⟨pkt, member, carrying, rfl⟩, unresolved⟩
    have sent : pkt ∈ old.filter isSent := List.mem_filter.mpr ⟨member, isSent_of_carries carrying⟩
    rcases List.mem_append.mp (settles.settled.mem_iff.mp sent) with listed | remains
    · exact absurd (List.mem_map_of_mem listed) unresolved
    · exact ⟨pkt, (List.mem_filter.mp remains).1, carrying, rfl⟩

theorem Resolves.outstanding {forgotten : List Nat} {least : Nat} (kept : monitored.Kept)
    (resolves : Resolves monitored next epoch resolved forgotten least) (number : Nat) :
    next.Outstanding number ↔ monitored.Outstanding number ∧ number ∉ resolved.map (·.pktNum) := by
  have settled := settles_outstanding (kept.coherent.distinct epoch) resolves.queue number
  have origin : ∀ pkt ∈ resolved, pkt.pktNum ∈ (monitored.recovery.epochs epoch).sentPackets.map (·.pktNum) := by
    intro pkt member
    have sent := resolves.queue.settled.mem_iff.mpr (List.mem_append_left _ member)
    exact List.mem_map_of_mem (List.mem_filter.mp sent).1
  constructor
  · rintro ⟨other, outstanding⟩
    by_cases same : other = epoch
    · subst same
      obtain ⟨before, unresolved⟩ := settled.mp outstanding
      exact ⟨⟨other, before⟩, unresolved⟩
    · rw [OutstandingIn, resolves.others other same] at outstanding
      refine ⟨⟨other, outstanding⟩, fun listed => ?_⟩
      obtain ⟨pkt, member, rfl⟩ := List.mem_map.mp listed
      obtain ⟨held, there, _, equal⟩ := outstanding
      refine kept.apart other epoch same held.pktNum (List.mem_map_of_mem there) ?_
      rw [equal]
      exact origin pkt member
  · rintro ⟨⟨other, outstanding⟩, unresolved⟩
    by_cases same : other = epoch
    · subst same
      exact ⟨other, settled.mpr ⟨outstanding, unresolved⟩⟩
    · refine ⟨other, ?_⟩
      rw [OutstandingIn, resolves.others other same]
      exact outstanding

theorem Resolves.exact_iff {forgotten : List Nat} {least : Nat} (kept : monitored.Kept)
    (exact_ : monitored.Exact) (resolves : Resolves monitored next epoch resolved forgotten least)
    (known : ∀ number ∈ forgotten, number ∈ resolved.map (·.pktNum)) :
    next.Exact ↔ (∀ number, next.Outstanding number → least ≤ number) ∧
      ∀ number ∈ resolved.map (·.pktNum), monitored.Outstanding number → number ∈ forgotten ∨ number < least := by
  constructor
  · intro after
    refine ⟨fun number outstanding => ((resolves.held number).mp ((after number).mpr outstanding)).2.2, ?_⟩
    intro number listed outstanding
    by_contra neither
    obtain ⟨remembered, recent⟩ := not_or.mp neither
    have stored := (resolves.held number).mpr ⟨(exact_ number).mpr outstanding, remembered, Nat.not_lt.mp recent⟩
    exact ((resolves.outstanding kept number).mp ((after number).mp stored)).2 listed
  · rintro ⟨recent, dropped⟩ number
    rw [resolves.held, resolves.outstanding kept, exact_]
    refine and_congr_right fun outstanding => ⟨?_, fun unresolved => ?_⟩
    · rintro ⟨remembered, atLeast⟩ listed
      rcases dropped number listed outstanding with forgotten | below
      · exact remembered forgotten
      · omega
    · refine ⟨fun listed => unresolved (known number listed), recent number ?_⟩
      exact (resolves.outstanding kept number).mpr ⟨outstanding, unresolved⟩

section Calls

variable {handshakeStatus : HandshakeStatus} {now : Int}

theorem stored_of_forgets {numbers : List Nat}
    (forgets : BandwidthSampler.Forgets monitored.sampler numbers next.sampler) (number : Nat) :
    next.Stored number ↔ monitored.Stored number ∧ number ∉ numbers := by
  constructor
  · rintro ⟨size, held⟩
    obtain ⟨before, kept⟩ := (forgets.held number size).mp held
    exact ⟨⟨size, before⟩, kept⟩
  · rintro ⟨⟨size, before⟩, kept⟩
    exact ⟨size, (forgets.held number size).mpr ⟨before, kept⟩⟩

theorem resolves_none (queues : ∀ other, (next.recovery.epochs other).sentPackets =
      (monitored.recovery.epochs other).sentPackets)
    (sampler : next.sampler = monitored.sampler) (epoch : Epoch) : Resolves monitored next epoch [] [] 0 where
  queue := by
    rw [queues]
    exact .refl _
  others other _ := queues other
  held number := by simp [Stored, sampler]

theorem resolves_same (state : RecoveryEpoch)
    (same : state.sentPackets = (monitored.recovery.epochs epoch).sentPackets) :
    Resolves monitored { monitored with recovery := monitored.recovery.setEpoch epoch state, event := none } epoch
      [] [] 0 := by
  refine resolves_none (fun other => ?_) ?_ epoch
  case refine_2 => rfl
  show (Function.update monitored.recovery.epochs epoch state other).sentPackets = _
  by_cases here : other = epoch
  · rw [here, Function.update_self, same]
  · rw [Function.update_of_ne here]

variable {loss : LossDetectionResult} {pkt : Sent} {resolved : List SentPacket} {forgotten : List Nat}

theorem detectAndRemoveLostPackets_others
    (detected : monitored.detectAndRemoveLostPackets mulF64 epoch now = some (next, loss)) (other : Epoch)
    (differs : other ≠ epoch) : next.recovery.epochs other = monitored.recovery.epochs other := by
  obtain ⟨⟨recovery, result⟩, found, returned⟩ := Option.bind_eq_some_iff.mp detected
  obtain ⟨⟨state, lostReuse, counts⟩, looped, finished⟩ := Option.bind_eq_some_iff.mp found
  cases finished
  cases returned
  exact Function.update_of_ne differs _ _

theorem pathChange_resolves (kept : monitored.Kept)
    (detected : monitored.detectAndRemoveLostPackets mulF64 epoch now = some (next, loss)) :
    ∃ lost probes, Resolves monitored next epoch (lost ++ probes) (probes.map (·.pktNum)) 0 ∧
      next.recovery.lostReuse.map (·.packetNumber) = lost.map (·.pktNum) ∧
      ∀ number ∈ lost.map (·.pktNum), number ∉ probes.map (·.pktNum) := by
  obtain ⟨lost, probes, settles, _, lostReuse, _, _, _, _, forgets⟩ :=
    detectAndRemoveLostPackets_spec kept.coherent.sorted detected
  have once := (settles.settled.map SentPacket.pktNum).nodup_iff.mp
    ((kept.coherent.distinct epoch).sublist (List.filter_sublist.map SentPacket.pktNum))
  rw [List.map_append, List.map_append, List.nodup_append', List.nodup_append'] at once
  refine ⟨lost, probes, ⟨settles, fun other differs => ?_, fun number => ?_⟩, ?_, fun number listed => once.1.2.2 listed⟩
  · rw [detectAndRemoveLostPackets_others detected other differs]
  · rw [stored_of_forgets forgets, and_iff_left (Nat.zero_le number)]
  · rw [lostReuse, List.map_map]
    rfl

theorem event_resolves (kept : monitored.Kept) {recovery : GRecovery} {acked : List SentPacket}
    (acks : Settles (monitored.recovery.epochs epoch).sentPackets (recovery.epochs epoch).sentPackets acked)
    (others : ∀ other, other ≠ epoch → (recovery.epochs other).sentPackets =
      (monitored.recovery.epochs other).sentPackets)
    {newlyAcked : List Acked} (numbers : newlyAcked.map (·.pktNum) = acked.map (·.pktNum))
    {prior : Nat}
    (detected : { monitored with recovery : Monitored }.detectAndRemoveLostPackets mulF64 epoch now = some (middle, loss))
    {last : GRecovery} (epochs : last.epochs = middle.recovery.epochs) :
    ∃ resolved forgotten,
      Resolves monitored { middle.onCongestionEvent prior newlyAcked epoch loss with recovery := last }
      epoch resolved forgotten (last.epochs epoch).leastUnacked ∧
      ∀ number, number ∈ forgotten ↔ number ∈ resolved.map (·.pktNum) := by
  have sorted : ({ monitored with recovery } : Monitored).sampler.connectionStateMap.Sorted := kept.coherent.sorted
  obtain ⟨lost, probes, settles, _, lostReuse, _, _, _, _, forgets⟩ := detectAndRemoveLostPackets_spec sorted detected
  have told := BandwidthSampler.onCongestionEvent_forgets forgets.sorted newlyAcked middle.recovery.lostReuse
  have lostNumbers : middle.recovery.lostReuse.map (·.packetNumber) = lost.map (·.pktNum) := by
    rw [lostReuse, List.map_map]
    rfl
  rw [lostNumbers, numbers] at told
  have all := forgets.trans told
  refine ⟨acked ++ (lost ++ probes), probes.map (·.pktNum) ++ (lost.map (·.pktNum) ++ acked.map (·.pktNum)),
    ⟨?_, fun other differs => ?_, fun number => ?_⟩, fun number => ?_⟩
  · rw [epochs]
    exact acks.trans settles
  · rw [epochs, detectAndRemoveLostPackets_others detected other differs]
    exact others other differs
  · have trimmed := fun size : Nat => BandwidthSampler.mem_removeObsolete_iff all.sorted
      (middle.recovery.epochs epoch).leastUnacked number size
    rw [epochs]
    constructor
    · rintro ⟨size, held⟩
      obtain ⟨before, recent⟩ := (trimmed size).mp held
      obtain ⟨old, remembered⟩ := (all.held number size).mp before
      exact ⟨⟨size, old⟩, remembered, recent⟩
    · rintro ⟨⟨size, old⟩, remembered, recent⟩
      exact ⟨size, (trimmed size).mpr ⟨(all.held number size).mpr ⟨old, remembered⟩, recent⟩⟩
  · simp only [List.map_append, List.mem_append]
    tauto

theorem leastUnacked_le {state : RecoveryEpoch} (increasing : (state.sentPackets.map (·.pktNum)).Pairwise (· < ·))
    {pkt : SentPacket} (member : pkt ∈ state.sentPackets) (sent : isSent pkt = true) :
    state.leastUnacked ≤ pkt.pktNum := by
  have first : ∃ least ∈ state.sentPackets.find? isSent, least.pktNum ≤ pkt.pktNum := by
    generalize state.sentPackets = packets at increasing member
    induction packets with
    | nil => cases member
    | cons head packets ih =>
      rw [List.map_cons, List.pairwise_cons] at increasing
      rw [List.find?_cons]
      cases headSent : isSent head with
      | true =>
        refine ⟨head, rfl, ?_⟩
        rcases List.mem_cons.mp member with rfl | later
        · exact Nat.le_refl _
        · exact Nat.le_of_lt (increasing.1 _ (List.mem_map_of_mem later))
      | false =>
        rcases List.mem_cons.mp member with rfl | later
        · cases headSent.symm.trans sent
        · exact ih increasing.2 later
  obtain ⟨least, found, le⟩ := first
  rw [RecoveryEpoch.leastUnacked, found]
  exact le

/-- No packet that is outstanding in another space is below the least one of this. -/
def Clear (monitored : Monitored) (epoch : Epoch) : Prop :=
  ∀ other, other ≠ epoch → ∀ number, monitored.OutstandingIn other number →
    (monitored.recovery.epochs epoch).leastUnacked ≤ number

theorem clear_iff (coherent : monitored.Coherent) (epoch : Epoch) :
    (∀ number, monitored.Outstanding number → (monitored.recovery.epochs epoch).leastUnacked ≤ number) ↔
      monitored.Clear epoch := by
  constructor
  · exact fun recent other _ number outstanding => recent number ⟨other, outstanding⟩
  · rintro clear number ⟨other, outstanding⟩
    by_cases same : other = epoch
    · subst same
      obtain ⟨pkt, member, carrying, rfl⟩ := outstanding
      exact leastUnacked_le (coherent.increasing other) member (isSent_of_carries carrying)
    · exact clear other same number outstanding

section

variable (kept : monitored.Kept) (exact_ : monitored.Exact)

include kept exact_

theorem Resolves.event_iff (coherent : next.Coherent)
    (resolves : Resolves monitored next epoch resolved forgotten (next.recovery.epochs epoch).leastUnacked)
    (all : ∀ number, number ∈ forgotten ↔ number ∈ resolved.map (·.pktNum)) : next.Exact ↔ next.Clear epoch := by
  rw [resolves.exact_iff kept exact_ fun number member => (all number).mp member, clear_iff coherent]
  exact and_iff_left fun number listed _ => .inl ((all number).mpr listed)

theorem Resolves.silent_iff (resolves : Resolves monitored next epoch resolved forgotten 0)
    (known : ∀ number ∈ forgotten, number ∈ resolved.map (·.pktNum)) :
    next.Exact ↔ ∀ number ∈ resolved.map (·.pktNum), monitored.Outstanding number → number ∈ forgotten := by
  rw [resolves.exact_iff kept exact_ known, and_iff_right fun number _ => Nat.zero_le number]
  simp only [Nat.not_lt_zero, or_false]

theorem Resolves.exact_of_told (resolves : Resolves monitored next epoch resolved forgotten 0)
    (all : ∀ number, number ∈ forgotten ↔ number ∈ resolved.map (·.pktNum)) : next.Exact :=
  (resolves.silent_iff kept exact_ fun number member => (all number).mp member).mpr
    fun number listed _ => (all number).mpr listed

end

theorem onPktNumSpaceDiscarded_resolves (kept : monitored.Kept) (epoch : Epoch) (handshakeStatus : HandshakeStatus)
    (now : Int) : ∃ resolved : List SentPacket,
      Resolves monitored (monitored.onPktNumSpaceDiscarded epoch handshakeStatus now) epoch resolved
        (resolved.map (·.pktNum)) 0 := by
  have epochs : (monitored.onPktNumSpaceDiscarded epoch handshakeStatus now).recovery.epochs =
      Function.update monitored.recovery.epochs epoch (monitored.recovery.epochs epoch).discard.1 := by
    rw [onPktNumSpaceDiscarded, GRecovery.onPktNumSpaceDiscarded]
    dsimp only
    rw [GRecovery.setLossDetectionTimer_epochs]
    rfl
  refine ⟨(monitored.recovery.epochs epoch).sentPackets.filter isSent, ⟨?_, ?_⟩, fun other differs => ?_,
    fun number => ?_⟩
  · rw [epochs, Function.update_self]
    exact List.nil_sublist _
  · rw [epochs, Function.update_self, RecoveryEpoch.discard, List.filter_nil, List.append_nil]
  · rw [epochs, Function.update_of_ne differs]
  · have forgets := (BandwidthSampler.neutered_forgets kept.coherent.sorted
      (((monitored.recovery.epochs epoch).sentPackets.filter isSent).map (·.pktNum))).1
    rw [and_iff_left (Nat.zero_le number)]
    exact stored_of_forgets forgets number

theorem onSpuriousLosses_newlyAcked {recovery after : GRecovery} {result : AckedDetectionResult}
    (spurious : recovery.onSpuriousLosses result = some after) : after.newlyAcked = recovery.newlyAcked := by
  rw [GRecovery.onSpuriousLosses] at spurious
  cases thresh : result.spuriousPktThresh with
  | none =>
    rw [thresh] at spurious
    cases spurious
    rfl
  | some raised =>
    rw [thresh] at spurious
    obtain ⟨lossThresh, _, returned⟩ := Option.bind_eq_some_iff.mp spurious
    cases returned
    rfl

theorem onAckReceived_resolves (kept : monitored.Kept) {ranges : RangeSet} {ackDelay : Nat} {skipPn : Option Nat}
    {wrap : Nat} {result : Except Error (OnAckReceivedOutcome × List Nat)}
    (received : monitored.onAckReceived mulF64 ranges ackDelay epoch handshakeStatus now skipPn wrap =
      some (next, result)) :
    (next.event = none ∧ ∃ acked, Resolves monitored next epoch acked [] 0 ∧
      next.recovery.newlyAcked.map (·.pktNum) = acked.map (·.pktNum)) ∨
    ∃ event resolved forgotten, next.event = some event ∧ event.epoch = epoch ∧
      Resolves monitored next epoch resolved forgotten (next.recovery.epochs epoch).leastUnacked ∧
      ∀ number, number ∈ forgotten ↔ number ∈ resolved.map (·.pktNum) := by
  obtain ⟨⟨state, newlyAcked, outcome⟩, swept, received⟩ := Option.bind_eq_some_iff.mp received
  obtain ⟨acked, settles, numbers, _⟩ := RecoveryEpoch.detectAndRemoveAckedPackets_swept swept
  have untold : ∀ recovery : GRecovery, recovery.epochs = Function.update monitored.recovery.epochs epoch state →
      Resolves monitored { monitored with recovery, event := none } epoch acked [] 0 := by
    intro recovery epochs
    refine ⟨?_, fun other differs => ?_, fun number => ?_⟩
    · rw [epochs, Function.update_self]
      exact settles
    · rw [epochs, Function.update_of_ne differs]
    · exact (and_iff_left ⟨List.not_mem_nil, Nat.zero_le number⟩).symm
  cases outcome with
  | error error =>
    cases received
    exact .inl ⟨rfl, acked, untold _ rfl, numbers⟩
  | ok outcome =>
    obtain ⟨recovery, spurious, received⟩ := Option.bind_eq_some_iff.mp received
    have epochs : recovery.epochs = Function.update monitored.recovery.epochs epoch state :=
      (onSpuriousLosses_kept spurious).1
    cases largest : newlyAcked.getLast? with
    | none =>
      rw [largest] at received
      cases received
      have empty : newlyAcked = [] := List.getLast?_eq_none_iff.mp largest
      subst empty
      have nothing : acked = [] := List.map_eq_nil_iff.mp numbers.symm
      subst nothing
      refine .inl ⟨rfl, [], untold _ epochs, ?_⟩
      exact congrArg (List.map Acked.pktNum) (onSpuriousLosses_newlyAcked spurious)
    | some largestNewlyAcked =>
      rw [largest] at received
      obtain ⟨⟨middle, loss⟩, detected, received⟩ := Option.bind_eq_some_iff.mp received
      cases received
      obtain ⟨largestAcked, stats, updated⟩ := GRecovery.onLargestNewlyAcked_spec recovery largestNewlyAcked outcome
        ackDelay epoch handshakeStatus now
      rw [updated] at detected
      have advanced : (recovery.setEpoch epoch
          { recovery.epochs epoch with largestAckedPacket := largestAcked }).epochs =
            Function.update monitored.recovery.epochs epoch { state with largestAckedPacket := largestAcked } := by
        rw [GRecovery.setEpoch, epochs, Function.update_idem, Function.update_self]
      have final : ({ middle.recovery with
          ptoCount := 0, lostCount := middle.recovery.lostCount + loss.lostPackets }.setLossDetectionTimer
            handshakeStatus now).epochs = middle.recovery.epochs := by
        rw [GRecovery.setLossDetectionTimer_epochs]
      obtain ⟨resolved, forgotten, resolves, all⟩ := event_resolves kept
        (by rw [advanced, Function.update_self]; exact settles)
        (fun other differs => by rw [advanced, Function.update_of_ne differs]) numbers detected final
      exact .inr ⟨_, resolved, forgotten, rfl, rfl, resolves, all⟩

theorem onLossDetectionTimeout_resolves (kept : monitored.Kept)
    (expired : monitored.onLossDetectionTimeout mulF64 handshakeStatus now = some next) :
    (next.event = none ∧ ∃ epoch, Resolves monitored next epoch [] [] 0) ∨
    ∃ event resolved forgotten, next.event = some event ∧
      Resolves monitored next event.epoch resolved forgotten (next.recovery.epochs event.epoch).leastUnacked ∧
      ∀ number, number ∈ forgotten ↔ number ∈ resolved.map (·.pktNum) := by
  rw [onLossDetectionTimeout] at expired
  dsimp only at expired
  split at expired
  · obtain ⟨⟨middle, loss⟩, detected, returned⟩ := Option.bind_eq_some_iff.mp expired
    cases returned
    have final : ({ middle.recovery with
        lostCount := middle.recovery.lostCount + loss.lostPackets }.setLossDetectionTimer handshakeStatus now).epochs =
          middle.recovery.epochs := by
      rw [GRecovery.setLossDetectionTimer_epochs]
    obtain ⟨resolved, forgotten, resolves, all⟩ := event_resolves kept (.refl _) (fun _ _ => rfl)
      (List.map_nil.trans List.map_nil.symm) detected final
    exact .inr ⟨_, resolved, forgotten, rfl, resolves, all⟩
  · cases expired
    refine .inl ⟨rfl, .initial, ?_⟩
    refine resolves_none (fun other => ?_) ?_ .initial
    case refine_2 => rfl
    rw [GRecovery.setLossDetectionTimer_epochs, GRecovery.onProbeTimeout]
    dsimp only [GRecovery.setEpoch]
    by_cases same : other = monitored.recovery.probeSpace handshakeStatus now
    · rw [same, Function.update_self]
    · rw [Function.update_of_ne same]

section

variable (sent : monitored.onPacketSent pkt epoch handshakeStatus now = some next)

include sent

theorem onPacketSent_stored (number : Nat) :
    next.Stored number ↔ monitored.Stored number ∨ number = pkt.pktNum ∧ pkt.inFlight = true ∧ pkt.hasData = true := by
  obtain ⟨recovery, _, sent⟩ := Option.bind_eq_some_iff.mp sent
  cases inFlight : pkt.inFlight with
  | false =>
    rw [inFlight] at sent
    cases sent
    simp [Stored]
  | true =>
    rw [inFlight] at sent
    obtain ⟨sampler, told, sent⟩ := Option.bind_eq_some_iff.mp sent
    cases sent
    change monitored.sampler.onPacketSent pkt.pktNum pkt.size pkt.hasData = some sampler at told
    rw [BandwidthSampler.onPacketSent] at told
    cases hasData : pkt.hasData with
    | false =>
      rw [hasData] at told
      cases told
      simp [Stored]
    | true =>
      rw [hasData] at told
      obtain ⟨map, inserted, rfl⟩ := Option.map_eq_some_iff.mp told
      rw [Bbr.ConnectionStateMap.insert] at inserted
      split at inserted
      · cases inserted
      · cases inserted
        simp [Stored, List.mem_append, exists_or]

theorem packetSent_queues
    (other : Epoch) : (next.recovery.epochs other).sentPackets = (monitored.recovery.epochs other).sentPackets ++
      if other = epoch then
        [⟨pkt.pktNum, .sent pkt.timeSent pkt.ackEliciting pkt.inFlight pkt.hasData pkt.isPmtudProbe pkt.size pkt.frames⟩]
      else [] := by
  obtain ⟨recovery, queued, sent⟩ := Option.bind_eq_some_iff.mp sent
  have same : next.recovery = recovery := by
    cases inFlight : pkt.inFlight with
    | false =>
      rw [inFlight] at sent
      cases sent
      rfl
    | true =>
      rw [inFlight] at sent
      obtain ⟨sampler, _, sent⟩ := Option.bind_eq_some_iff.mp sent
      cases sent
      rfl
  rw [same]
  exact onPacketSent_queues queued other

theorem onPacketSent_outstanding
    (number : Nat) : next.Outstanding number ↔
      monitored.Outstanding number ∨ number = pkt.pktNum ∧ pkt.inFlight = true ∧ pkt.hasData = true := by
  have queues := packetSent_queues sent
  constructor
  · rintro ⟨other, listedPkt, member, carrying, rfl⟩
    rw [queues, List.mem_append] at member
    rcases member with member | member
    · exact .inl ⟨other, listedPkt, member, carrying, rfl⟩
    · split at member
      · rw [List.mem_singleton.mp member] at carrying ⊢
        exact .inr ⟨rfl, (Bool.and_eq_true_iff.mp carrying).1, (Bool.and_eq_true_iff.mp carrying).2⟩
      · cases member
  · rintro (⟨other, listedPkt, member, carrying, rfl⟩ | ⟨rfl, inFlight, hasData⟩)
    · refine ⟨other, listedPkt, ?_, carrying, rfl⟩
      rw [queues]
      exact List.mem_append_left _ member
    · refine ⟨epoch, ⟨pkt.pktNum,
        .sent pkt.timeSent pkt.ackEliciting pkt.inFlight pkt.hasData pkt.isPmtudProbe pkt.size pkt.frames⟩, ?_,
        Bool.and_eq_true_iff.mpr ⟨inFlight, hasData⟩, rfl⟩
      rw [queues, if_pos rfl]
      exact List.mem_append_right _ (List.mem_singleton.mpr rfl)

end

theorem onPacketSent_apart (kept : monitored.Kept) (fresh : monitored.nextPktNum ≤ pkt.pktNum)
    (sent : monitored.onPacketSent pkt epoch handshakeStatus now = some next) : next.Apart := by
  have queues := packetSent_queues sent
  have older : ∀ other number, number ∈ (next.recovery.epochs other).sentPackets.map (·.pktNum) →
      number ∈ (monitored.recovery.epochs other).sentPackets.map (·.pktNum) ∨ other = epoch ∧ number = pkt.pktNum := by
    intro other number member
    rw [queues, List.map_append, List.mem_append] at member
    rcases member with member | member
    · exact .inl member
    · split at member
      · rename_i here
        exact .inr ⟨here, List.mem_singleton.mp member⟩
      · cases member
  have unused : ∀ other, pkt.pktNum ∉ (monitored.recovery.epochs other).sentPackets.map (·.pktNum) := by
    intro other member
    exact Nat.not_lt.mpr fresh (kept.coherent.numbers other _ member)
  intro first second differ number member listed
  rcases older first number member with before | ⟨rfl, rfl⟩
  · rcases older second number listed with after | ⟨rfl, rfl⟩
    · exact kept.apart first second differ number before after
    · exact unused first before
  · rcases older second pkt.pktNum listed with after | ⟨rfl, _⟩
    · exact unused second after
    · exact differ rfl

end Calls

/-- The operation drops no packet from the sampler that is outstanding, and leaves none that it resolves. -/
def Spares (mulF64 : Nat → Rat → Nat) (monitored : Monitored) (op : Recovery.Op) : Prop :=
  ∀ next, monitored.step mulF64 op = some next → match op with
    | .ackReceived .. => (∀ event ∈ next.event, next.Clear event.epoch) ∧
        (next.event = none → ∀ acked ∈ next.recovery.newlyAcked, ¬ monitored.Outstanding acked.pktNum)
    | .lossDetectionTimeout .. => ∀ event ∈ next.event, next.Clear event.epoch
    | .pathChange .. => ∀ lost ∈ next.recovery.lostReuse, ¬ monitored.Outstanding lost.packetNumber
    | _ => True

theorem numbers_outstanding {Packet : Type} {packets : List Packet} {number : Packet → Nat} {numbers : List Nat}
    (same : packets.map number = numbers) :
    (∀ other ∈ numbers, ¬ monitored.Outstanding other) ↔ ∀ packet ∈ packets, ¬ monitored.Outstanding (number packet) := by
  rw [← same]
  exact List.forall_mem_map

theorem step_exact_iff {op : Recovery.Op} (kept : monitored.Kept) (exact_ : monitored.Exact)
    (admits : monitored.Admits op) :
    (∀ next, monitored.step mulF64 op = some next → next.Exact) ↔ monitored.Spares mulF64 op := by
  refine forall_congr' fun next => forall_congr' fun stepped => ?_
  have coherent := (step_coherent kept.coherent admits stepped).1
  cases op with
  | packetSent pkt epoch handshakeStatus now =>
    refine iff_of_true (fun number => ?_) trivial
    rw [onPacketSent_stored stepped, onPacketSent_outstanding stepped, exact_]
  | ackReceived ranges ackDelay epoch handshakeStatus now skipPn wrap =>
    obtain ⟨⟨after, result⟩, received, rfl⟩ := Option.map_eq_some_iff.mp stepped
    rcases onAckReceived_resolves kept received with
      ⟨silent, acked, resolves, numbers⟩ | ⟨event, resolved, forgotten, happened, rfl, resolves, all⟩
    · rw [resolves.silent_iff kept exact_ nofun]
      show _ ↔ _ ∧ _
      rw [silent, and_iff_right nofun, ← numbers_outstanding numbers]
      simp
    · rw [resolves.event_iff kept exact_ coherent all]
      show _ ↔ _ ∧ _
      rw [happened]
      simp
  | lossDetectionTimeout handshakeStatus now =>
    rcases onLossDetectionTimeout_resolves kept stepped with
      ⟨silent, epoch, resolves⟩ | ⟨event, resolved, forgotten, happened, resolves, all⟩
    · refine iff_of_true (resolves.exact_of_told kept exact_ fun _ => .rfl) ?_
      rw [silent]
      exact nofun
    · rw [resolves.event_iff kept exact_ coherent all]
      show _ ↔ ∀ event ∈ next.event, _
      rw [happened]
      simp
  | pathChange epoch now =>
    obtain ⟨⟨after, loss⟩, detected, rfl⟩ := Option.map_eq_some_iff.mp stepped
    obtain ⟨lost, probes, resolves, numbers, apart⟩ := pathChange_resolves kept detected
    rw [resolves.silent_iff kept exact_ fun number member => by
      rw [List.map_append]
      exact List.mem_append_right _ member]
    show _ ↔ ∀ packet ∈ after.recovery.lostReuse, _
    rw [← numbers_outstanding numbers, List.map_append]
    constructor
    · exact fun told number listed outstanding =>
        apart number listed (told number (List.mem_append_left _ listed) outstanding)
    · intro spared number listed outstanding
      rcases List.mem_append.mp listed with isLost | isProbe
      · exact absurd outstanding (spared number isLost)
      · exact isProbe
  | pktNumSpaceDiscarded epoch handshakeStatus now =>
    cases stepped
    obtain ⟨resolved, resolves⟩ := onPktNumSpaceDiscarded_resolves kept epoch handshakeStatus now
    exact iff_of_true (resolves.exact_of_told kept exact_ fun _ => .rfl) trivial
  | getAckedFrames epoch =>
    cases stepped
    have untouched := (resolves_same
      { monitored.recovery.epochs epoch with ackedFrames := [] } rfl).exact_of_told kept exact_ fun _ => .rfl
    exact iff_of_true untouched trivial
  | getLostFrames epoch =>
    cases stepped
    have untouched := (resolves_same
      { monitored.recovery.epochs epoch with lostFrames := [] } rfl).exact_of_told kept exact_ fun _ => .rfl
    exact iff_of_true untouched trivial
  | pingSent epoch =>
    cases stepped
    have untouched := (resolves_same
      { monitored.recovery.epochs epoch with lossProbes := (monitored.recovery.epochs epoch).lossProbes - 1 }
        rfl).exact_of_told kept exact_ fun _ => .rfl
    exact iff_of_true untouched trivial

theorem step_kept {op : Recovery.Op} (kept : monitored.Kept) (admits : monitored.Admits op)
    (stepped : monitored.step mulF64 op = some next) : next.Kept := by
  have shrunk : ∀ {other : Monitored}, Agrees monitored other → other.Apart :=
    fun agrees => kept.apart.shrinks agrees.shrinks
  refine ⟨(step_coherent kept.coherent admits stepped).1, ?_⟩
  cases op with
  | packetSent pkt epoch handshakeStatus now => exact onPacketSent_apart kept admits stepped
  | ackReceived ranges ackDelay epoch handshakeStatus now skipPn wrap =>
    obtain ⟨⟨after, result⟩, received, rfl⟩ := Option.map_eq_some_iff.mp stepped
    exact shrunk (onAckReceived_agrees kept.coherent received)
  | lossDetectionTimeout handshakeStatus now => exact shrunk (onLossDetectionTimeout_agrees kept.coherent stepped)
  | pathChange epoch now =>
    obtain ⟨⟨after, loss⟩, detected, rfl⟩ := Option.map_eq_some_iff.mp stepped
    obtain ⟨lost, probes, _, queues, _, _, _, counter, silent, forgets⟩ :=
      detectAndRemoveLostPackets_spec kept.coherent.sorted detected
    exact shrunk (.of_shrinks (.of_forgets forgets counter queues) silent)
  | pktNumSpaceDiscarded epoch handshakeStatus now =>
    cases stepped
    exact shrunk (onPktNumSpaceDiscarded_agrees kept.coherent epoch handshakeStatus now)
  | getAckedFrames epoch =>
    cases stepped
    exact shrunk (.of_queues kept.coherent (settles_update (.refl _) rfl))
  | getLostFrames epoch =>
    cases stepped
    exact shrunk (.of_queues kept.coherent (settles_update (.refl _) rfl))
  | pingSent epoch =>
    cases stepped
    exact shrunk (.of_queues kept.coherent (settles_update (.refl _) rfl))

/-- What holds between the calls of a run that spares the outstanding packets. -/
structure Tracking (monitored : Monitored) : Prop where
  kept : monitored.Kept
  exact_ : monitored.Exact

theorem tracking_start (initialRtt maxAckDelay : Nat) (enableRelaxedLossThreshold : Bool) (now : Int) :
    (new initialRtt maxAckDelay enableRelaxedLossThreshold now).Tracking := by
  refine ⟨⟨start_coherent initialRtt maxAckDelay enableRelaxedLossThreshold now, fun _ _ _ _ => nofun⟩, fun number => ?_⟩
  constructor
  · rintro ⟨size, held⟩
    cases held
  · rintro ⟨epoch, pkt, member, _⟩
    cases member

/-- After every call of a run the sampler stores the states of exactly the packets that are outstanding, precisely
where every call spares them. -/
theorem sampler_tracks_outstanding (mulF64 : Nat → Rat → Nat) (initialRtt maxAckDelay : Nat)
    (enableRelaxedLossThreshold : Bool) (now : Int) (ops : List Recovery.Op)
    (guarded : (machine mulF64).Guarded Admits (new initialRtt maxAckDelay enableRelaxedLossThreshold now) ops) :
    (machine mulF64).Guarded (fun monitored op => ∀ next, monitored.step mulF64 op = some next →
        ∀ number, next.Stored number ↔ next.Outstanding number)
      (new initialRtt maxAckDelay enableRelaxedLossThreshold now) ops ↔
    (machine mulF64).Guarded (Spares mulF64) (new initialRtt maxAckDelay enableRelaxedLossThreshold now) ops := by
  have initial := tracking_start initialRtt maxAckDelay enableRelaxedLossThreshold now
  refine (machine mulF64).guarded_iff ?_ ?_ initial guarded
  · exact fun monitored op tracking admits => step_exact_iff tracking.kept tracking.exact_ admits
  · exact fun monitored op next tracking admits tracks stepped =>
      ⟨step_kept tracking.kept admits stepped, tracks next stepped⟩

instance (monitored : Monitored) (epoch : Epoch) (number : Nat) : Decidable (monitored.OutstandingIn epoch number) :=
  inferInstanceAs (Decidable (∃ pkt ∈ (monitored.recovery.epochs epoch).sentPackets,
    carries pkt = true ∧ pkt.pktNum = number))

instance (monitored : Monitored) (number : Nat) : Decidable (monitored.Outstanding number) :=
  inferInstanceAs (Decidable (∃ epoch, monitored.OutstandingIn epoch number))

instance (monitored : Monitored) (epoch : Epoch) : Decidable (monitored.Clear epoch) :=
  decidable_of_iff (∀ other, other ≠ epoch → ∀ pkt ∈ (monitored.recovery.epochs other).sentPackets,
      carries pkt = true → (monitored.recovery.epochs epoch).leastUnacked ≤ pkt.pktNum)
    ⟨fun clear other differs _ ⟨pkt, member, carrying, is⟩ => is ▸ clear other differs pkt member carrying,
      fun clear other differs pkt member carrying => clear other differs pkt.pktNum ⟨pkt, member, carrying, rfl⟩⟩

instance (mulF64 : Nat → Rat → Nat) (monitored : Monitored) (op : Recovery.Op) :
    Decidable (monitored.Spares mulF64 op) := by
  rcases op with ⟨⟩
  case ackReceived => exact inferInstanceAs (Decidable (∀ next ∈ monitored.step mulF64 _,
      (∀ event ∈ next.event, next.Clear event.epoch) ∧
        (next.event = none → ∀ acked ∈ next.recovery.newlyAcked, ¬ monitored.Outstanding acked.pktNum)))
  case lossDetectionTimeout => exact inferInstanceAs (Decidable (∀ next ∈ monitored.step mulF64 _,
      ∀ event ∈ next.event, next.Clear event.epoch))
  case pathChange => exact inferInstanceAs (Decidable (∀ next ∈ monitored.step mulF64 _,
      ∀ lost ∈ next.recovery.lostReuse, ¬ monitored.Outstanding lost.packetNumber))
  all_goals exact .isTrue fun _ _ => trivial

def pingPacket (pktNum : Nat) (now : Int) (epoch : Epoch) : Recovery.Op :=
  .packetSent ⟨pktNum, [.ping none], now, none, none, 1200, true, true, true, false⟩ epoch ⟨true, true, false⟩ now

def acked (first last : Nat) : Recovery.Op :=
  .ackReceived (.inline ⟨[(first, last + 1)], 4⟩) 0 .application ⟨true, true, false⟩ 1000000 none 0

/-- Two of the packets are lost, and one of another space stays outstanding throughout. -/
def recovered : List Recovery.Op :=
  [pingPacket 0 0 .application, pingPacket 1 0 .application, pingPacket 2 500000 .application,
    pingPacket 3 500000 .application, pingPacket 4 500000 .application, acked 4 4, .getLostFrames .application,
    pingPacket 5 1000000 .handshake, acked 2 3, .lossDetectionTimeout ⟨true, true, false⟩ 2000000000]

theorem sampler_tracks_outstanding_recovered : (machine fun duration _ => duration).Guarded (fun monitored op => ∀ next,
      monitored.step (fun duration _ => duration) op = some next → ∀ number, next.Stored number ↔ next.Outstanding number)
      (new 333000000 0 false 0) recovered :=
  (sampler_tracks_outstanding (fun duration _ => duration) 333000000 0 false 0 recovered (by decide +kernel)).mpr
    (by decide +kernel)

def bothSpaces : List Recovery.Op := [pingPacket 0 0 .handshake, pingPacket 1 0 .application]

/-- The acknowledgement of the packet in the application space makes the sampler drop the one of the handshake. -/
theorem handshake_packet_dropped :
    ∃ final, (machine fun duration _ => duration).run (new 333000000 0 false 0) (bothSpaces ++ [acked 1 1]) = some final ∧
      final.Outstanding 0 ∧ ¬ final.Stored 0 := by
  refine exists_reached_of (fun final => (∃ pkt ∈ (final.recovery.epochs .handshake).sentPackets, carries pkt = true ∧
    pkt.pktNum = 0) ∧ final.sampler.connectionStateMap = []) (by decide +kernel) fun final _ ⟨queued, empty⟩ => ?_
  refine ⟨⟨.handshake, queued⟩, ?_⟩
  rintro ⟨size, held⟩
  rw [empty] at held
  cases held

end Monitored

end Quiche
