import Quiche.Recovery.Legacy
import Quiche.Recovery.Queue

namespace Quiche.Legacy.RecoveryEpoch

open Data

/-- A packet of the queue is one of the book. Resolved packets keep their number only. -/
inductive Matches : Sent → Sent × Fate → Prop where
  | unresolved {sent : Sent} (fresh : sent.Fresh) : Matches sent (sent, .inFlight)
  | resolved {pkt sent : Sent} {fate : Fate} (number : pkt.pktNum = sent.pktNum)
      (known : (pkt.timeAcked.isSome || pkt.timeLost.isSome) = true) (settled : fate ≠ .inFlight) :
      Matches pkt (sent, fate)

theorem Matches.number {pkt : Sent} {entry : Sent × Fate} (fits : Matches pkt entry) : pkt.pktNum = entry.1.pktNum := by
  cases fits with
  | unresolved => rfl
  | resolved number => exact number

def AckSweep.tally (sweep : AckSweep) : Tally :=
  ⟨sweep.inFlightCount, sweep.result.ackedBytes, sweep.ackedFrames, sweep.newlyAcked.map (·.pktNum)⟩

def LossSweep.tally (sweep : LossSweep) : Tally :=
  ⟨sweep.inFlightCount, sweep.result.lostBytes + sweep.result.pmtudLostBytes, sweep.lostFrames, sweep.result.lostPkts⟩

variable {now lostSendTime : Int} {limit stop lossDelay pktThresh largestAcked : Nat}

theorem ackPacket_again {sweep : AckSweep} {pkt : Sent} {entry : Sent × Fate}
    (fits : Matches pkt entry) (resolved : entry.2 ≠ .inFlight) (before : pkt.pktNum < stop)
    (known : pkt.pktNum ≤ limit) :
    ∃ next new, ackPacket now limit stop sweep pkt = some (next, new, true) ∧ Matches new entry ∧
      next.tally = sweep.tally := by
  cases fits with
  | unresolved => exact absurd rfl resolved
  | resolved number was settled =>
    rw [ackPacket, if_neg (Nat.not_le.mpr before)]
    by_cases acked : pkt.timeAcked.isSome
    · rw [if_pos acked]
      exact ⟨sweep, pkt, rfl, .resolved number was settled, rfl⟩
    · have lost : pkt.timeLost.isSome = true := by simpa [acked] using was
      rw [if_neg acked, if_pos lost, subChecked_of_le known]
      exact ⟨_, _, rfl, .resolved number rfl settled, rfl⟩

theorem ackPacket_first {sweep : AckSweep} {pkt sent : Sent}
    (fits : Matches pkt (sent, .inFlight)) (before : pkt.pktNum < stop) (room : Sent.count [sent] ≤ sweep.tally.count) :
    ∃ next new, ackPacket now limit stop sweep pkt = some (next, new, true) ∧ Matches new (sent, .acked) ∧
      Gains sweep.tally next.tally [sent] := by
  cases fits with
  | resolved _ _ settled => exact absurd rfl settled
  | unresolved fresh =>
    rw [Sent.count_singleton] at room
    rw [ackPacket, if_neg (Nat.not_le.mpr before), if_neg fresh.not_acked, if_neg fresh.not_lost]
    by_cases flying : pkt.inFlight = true
    · rw [if_pos flying] at room
      have counts : subChecked sweep.inFlightCount 1 = some (sweep.inFlightCount - 1) := subChecked_of_le room
      simp only [if_pos flying, counts]
      refine ⟨_, _, rfl, .resolved rfl rfl nofun, Gains.single ?_ ?_ rfl fun number => ?_⟩
      · rw [if_pos flying]
        exact Nat.sub_add_cancel room
      · rw [if_pos flying]
        rfl
      · simp [AckSweep.tally]
    · simp only [if_neg flying]
      refine ⟨_, _, rfl, .resolved rfl rfl nofun, Gains.single ?_ ?_ rfl fun number => ?_⟩
      · rw [if_neg flying]
        rfl
      · rw [if_neg flying]
        rfl
      · simp [AckSweep.tally]

theorem acks (now : Int) (limit : Nat) : Acks Sent.pktNum (ackPacket now limit) Matches AckSweep.tally limit where
  number _ _ fits := fits.number
  past reached := by rw [ackPacket, if_pos reached]
  again fits resolved before known := ackPacket_again fits resolved before known
  first fits before room := ackPacket_first fits before room

theorem losePacket_lost {sweep : LossSweep} {sent : Sent} (fresh : sent.Fresh) (known : sent.pktNum ≤ largestAcked)
    (late : sent.timeSent ≤ lostSendTime ∨ largestAcked ≥ sent.pktNum + pktThresh)
    (room : Sent.count [sent] ≤ sweep.tally.count) :
    ∃ next new, losePacket lossDelay pktThresh now lostSendTime largestAcked sweep sent = some (next, new, true) ∧
      Matches new (sent, .lost) ∧ Gains sweep.tally next.tally [sent] := by
  rw [Sent.count_singleton] at room
  rw [losePacket, if_neg (not_not.mpr known), if_neg fresh.not_resolved, if_pos late]
  by_cases probe : sent.isPmtudProbe = true
  · have flying := fresh.probe probe
    rw [if_pos flying] at room
    have counts : subChecked sweep.inFlightCount 1 = some (sweep.inFlightCount - 1) := subChecked_of_le room
    simp only [if_pos probe, counts]
    refine ⟨_, _, rfl, .resolved rfl (Bool.or_true _) nofun, Gains.single ?_ ?_ rfl fun number => ?_⟩
    · rw [if_pos flying]
      exact Nat.sub_add_cancel room
    · rw [if_pos flying]
      exact (Nat.add_assoc _ _ _).symm
    · simp [LossSweep.tally]
  · by_cases flying : sent.inFlight = true
    · rw [if_pos flying] at room
      have counts : subChecked sweep.inFlightCount 1 = some (sweep.inFlightCount - 1) := subChecked_of_le room
      simp only [if_neg probe, if_pos flying, counts]
      refine ⟨_, _, rfl, .resolved rfl (Bool.or_true _) nofun, Gains.single ?_ ?_ rfl fun number => ?_⟩
      · rw [if_pos flying]
        exact Nat.sub_add_cancel room
      · rw [if_pos flying]
        exact Nat.add_right_comm _ _ _
      · simp [LossSweep.tally]
    · simp only [if_neg probe, if_neg flying]
      refine ⟨_, _, rfl, .resolved rfl (Bool.or_true _) nofun, Gains.single ?_ ?_ rfl fun number => ?_⟩
      · rw [if_neg flying]
        rfl
      · rw [if_neg flying]
        rfl
      · simp [LossSweep.tally]

theorem loses (lossDelay pktThresh largestAcked : Nat) (now lostSendTime : Int) :
    Turn Matches LossSweep.tally .lost (fun _ => True) (fun _ => False)
      (losePacket lossDelay pktThresh now lostSendTime largestAcked) where
  turn {sweep pkt entry} fits room := by
    by_cases known : pkt.pktNum ≤ largestAcked
    · by_cases resolved : (pkt.timeAcked.isSome || pkt.timeLost.isSome) = true
      · refine ⟨sweep, pkt, true, ?_, .inl ⟨rfl, fits, nofun, nofun⟩⟩
        rw [losePacket, if_neg (not_not.mpr known), if_pos resolved]
      · cases fits with
        | resolved _ was _ => exact absurd was resolved
        | unresolved fresh =>
          by_cases late : pkt.timeSent ≤ lostSendTime ∨ largestAcked ≥ pkt.pktNum + pktThresh
          · obtain ⟨next, new, turned, lost, gains⟩ := losePacket_lost fresh known late room
            exact ⟨next, new, true, turned, .inr ⟨pkt, rfl, rfl, trivial, lost, gains⟩⟩
          · rw [losePacket, if_neg (not_not.mpr known), if_neg resolved, if_neg late]
            exact ⟨_, pkt, false, rfl, .inl ⟨rfl, .unresolved fresh, nofun, nofun⟩⟩
    · refine ⟨sweep, pkt, false, ?_, .inl ⟨rfl, fits, nofun, nofun⟩⟩
      rw [losePacket, if_pos known]

def space (epoch : RecoveryEpoch) : Space := ⟨epoch.ackedFrames, epoch.lostFrames⟩

def packetSpace (epoch : RecoveryEpoch) : PacketSpace Sent :=
  ⟨epoch.sentPackets, epoch.inFlightCount, epoch.timeOfLastAckElicitingPacket, epoch.space⟩

abbrev Tracks (epoch : RecoveryEpoch) (book : Book) : Prop := epoch.packetSpace.Tracks Matches book

variable {epoch : RecoveryEpoch} {book : Book}

theorem Tracks.drain (tracks : Tracks epoch book) (lossThresh : Int) :
    Tracks (epoch.drainAckedAndLostPackets lossThresh) book := by
  refine ⟨tracks.kept.drain fun pkt entry fits leaves => ?_, tracks.count, tracks.last⟩
  cases fits with
  | resolved _ _ settled => exact settled
  | unresolved fresh =>
    rw [drained, Bool.and_eq_true] at leaves
    exact absurd leaves.2 fresh.not_resolved

theorem detectAndRemoveAckedPackets_spec (tracks : Tracks epoch book) {ranges : RangeSet} {skipPn : Option Nat}
    (acceptable : PacketSpace.Acceptable ranges skipPn) (now : Int) (rtt wrap : Nat) : ∃ next acked result,
      epoch.detectAndRemoveAckedPackets now ranges rtt skipPn wrap = some (next, acked, .ok result) ∧
      epoch.packetSpace.Resolves Matches next.packetSpace book (book.acknowledge ranges.iter) result.ackedBytes ∧
      (acked = [] → result.ackedBytes = 0) ∧ book.NewlyAcked ranges.iter (acked.map (·.pktNum)) := by
  obtain ⟨largest, nonempty⟩ := Option.isSome_iff_exists.mp acceptable.1.1
  obtain ⟨sweep, swept, looped, resolves, nothing, numbers⟩ := PacketSpace.Tracks.ackRanges tracks
    (acks now (max (epoch.largestAckedPacket.getD 0) largest)) acceptable nonempty
    ⟨epoch.inFlightCount, epoch.ackedFrames, [], ⟨0, 0, none, false, false⟩⟩ ⟨rfl, rfl, rfl, rfl⟩ wrap
  dsimp only [packetSpace] at looped
  simp only [detectAndRemoveAckedPackets, nonempty, Option.bind_eq_bind, Option.bind_some, looped]
  refine ⟨_, _, _, rfl, ⟨?_, resolves.moves, resolves.bytes⟩, ?_, numbers⟩
  · refine Tracks.drain ?_ _
    exact ⟨resolves.tracks.kept, resolves.tracks.count, resolves.tracks.last⟩
  · exact fun silent => nothing (List.map_eq_nil_iff.mpr silent)

theorem losePacket_largestLostPkt {sweep next : LossSweep} {pkt new : Sent} {goesOn : Bool}
    (noted : sweep.result.largestLostPkt = none → sweep.result.lostBytes = 0)
    (turned : losePacket lossDelay pktThresh now lostSendTime largestAcked sweep pkt = some (next, new, goesOn)) :
    next.result.largestLostPkt = none → next.result.lostBytes = 0 := by
  rw [losePacket] at turned
  split at turned
  · cases turned
    exact noted
  split at turned
  · cases turned
    exact noted
  split at turned
  · split at turned
    · obtain ⟨count, _, turned⟩ := Option.bind_eq_some_iff.mp turned
      cases turned
      exact noted
    split at turned
    · obtain ⟨count, _, turned⟩ := Option.bind_eq_some_iff.mp turned
      cases turned
      exact nofun
    · cases turned
      exact noted
  · cases turned
    exact noted

theorem detectLostPackets_spec (tracks : Tracks epoch book) (lossDelay pktThresh : Nat) (now : Int) :
    ∃ next loss, epoch.detectLostPackets lossDelay pktThresh now = some (next, loss) ∧
      epoch.packetSpace.Resolves Matches next.packetSpace book (book.lose loss.lostPkts)
        (loss.lostBytes + loss.pmtudLostBytes) ∧ (loss.largestLostPkt = none → loss.lostBytes = 0) := by
  obtain ⟨sweep, swept, looped, resolves⟩ := PacketSpace.Tracks.lose tracks
    (loses (max lossDelay granularity) pktThresh (epoch.largestAckedPacket.getD 0) now
      (now - (max lossDelay granularity : Nat)))
    ⟨epoch.inFlightCount, epoch.lostFrames, none, ⟨none, 0, 0, 0, []⟩⟩ ⟨rfl, rfl, rfl, rfl⟩
  have noted : sweep.result.largestLostPkt = none → sweep.result.lostBytes = 0 :=
    sweep_keeps (fun sweep : LossSweep => sweep.result.largestLostPkt = none → sweep.result.lostBytes = 0)
      (fun _ _ _ _ _ holds turned => losePacket_largestLostPkt holds turned) (fun _ => rfl) looped
  dsimp only [packetSpace] at looped
  simp only [detectLostPackets, looped, Option.bind_eq_bind, Option.bind_some]
  exact ⟨_, sweep.result, rfl, resolves, noted⟩

def unresolved (epoch : RecoveryEpoch) : List Sent :=
  epoch.sentPackets.filter fun pkt => pkt.timeAcked.isNone && pkt.timeLost.isNone

theorem Tracks.unresolved_eq (tracks : Tracks epoch book) : epoch.unresolved = book.unresolved := by
  rw [unresolved, ← List.filterMap_eq_filter]
  refine tracks.kept.unresolved_eq fun pkt entry fits => ?_
  cases fits with
  | unresolved fresh => simp [Option.guard, fresh.unacked, fresh.unlost]
  | resolved _ known settled =>
    rw [if_neg settled, Option.guard_eq_none_iff, ← Option.not_isSome, ← Option.not_isSome, ← Bool.not_or, known]
    rfl

end Quiche.Legacy.RecoveryEpoch
