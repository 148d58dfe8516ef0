import Quiche.Recovery.Gcongestion
import Quiche.Recovery.Queue

namespace Quiche.Gcongestion

open Data

def SentPacket.of (sent : Sent) : SentPacket := ⟨sent.pktNum,
    .sent sent.timeSent sent.ackEliciting sent.inFlight sent.hasData sent.isPmtudProbe sent.size sent.frames⟩

namespace RecoveryEpoch

/-- A packet of the queue is one of the book. Resolved packets keep their number only. -/
inductive Matches : SentPacket → Sent × Fate → Prop where
  | unresolved {sent : Sent} (fresh : sent.Fresh) : Matches (.of sent) (sent, .inFlight)
  | resolved {pkt : SentPacket} {sent : Sent} {fate : Fate} (number : pkt.pktNum = sent.pktNum)
      (known : drained pkt = true) (settled : fate ≠ .inFlight) : Matches pkt (sent, fate)

theorem Matches.number {pkt : SentPacket} {entry : Sent × Fate} (fits : Matches pkt entry) :
    pkt.pktNum = entry.1.pktNum := by
  cases fits with
  | unresolved => rfl
  | resolved number => exact number

def AckSweep.tally (sweep : AckSweep) : Tally :=
  ⟨sweep.pktsInFlight, sweep.result.ackedBytes, sweep.ackedFrames, sweep.newlyAcked.map (·.pktNum)⟩

def LossSweep.tally (sweep : LossSweep) : Tally :=
  ⟨sweep.pktsInFlight, sweep.lostBytes + sweep.pmtudLostBytes, sweep.lostFrames,
    sweep.newlyLost.map (·.packetNumber) ++ sweep.pmtudLostPackets⟩

theorem ackPacket_again {limit stop : Nat} {sweep : AckSweep} {pkt : SentPacket} {entry : Sent × Fate}
    (fits : Matches pkt entry) (resolved : entry.2 ≠ .inFlight) (before : pkt.pktNum < stop)
    (known : pkt.pktNum ≤ limit) :
    ∃ next new, ackPacket limit stop sweep pkt = some (next, new, true) ∧ Matches new entry ∧
      next.tally = sweep.tally := by
  cases fits with
  | unresolved => exact absurd rfl resolved
  | resolved number was settled =>
    obtain ⟨pktNum, status⟩ := pkt
    cases status with
    | sent => cases was
    | acked =>
      rw [ackPacket, if_pos before]
      exact ⟨_, _, rfl, .resolved number rfl settled, rfl⟩
    | lost =>
      rw [ackPacket, if_pos before]
      simp only [SentStatus.ack, subChecked_of_le known]
      exact ⟨_, _, rfl, .resolved number rfl settled, rfl⟩

theorem ackPacket_first {limit stop : Nat} {sweep : AckSweep} {pkt : SentPacket} {sent : Sent}
    (fits : Matches pkt (sent, .inFlight)) (before : pkt.pktNum < stop) (room : Sent.count [sent] ≤ sweep.tally.count) :
    ∃ next new, ackPacket limit stop sweep pkt = some (next, new, true) ∧ Matches new (sent, .acked) ∧
      Gains sweep.tally next.tally [sent] := by
  cases fits with
  | resolved _ _ settled => exact absurd rfl settled
  | unresolved fresh =>
    rw [Sent.count_singleton] at room
    rw [ackPacket, if_pos before]
    by_cases flying : sent.inFlight = true
    · rw [if_pos flying] at room
      have counts : subChecked sweep.pktsInFlight 1 = some (sweep.pktsInFlight - 1) := subChecked_of_le room
      simp only [SentPacket.of, SentStatus.ack, if_pos flying, counts]
      refine ⟨_, _, rfl, .resolved rfl rfl nofun, Gains.single ?_ ?_ rfl fun number => ?_⟩
      · rw [if_pos flying]
        exact Nat.sub_add_cancel room
      · rw [if_pos flying]
        rfl
      · simp [AckSweep.tally]
    · simp only [SentPacket.of, SentStatus.ack, if_neg flying]
      refine ⟨_, _, rfl, .resolved rfl rfl nofun, Gains.single ?_ ?_ rfl fun number => ?_⟩
      · rw [if_neg flying]
        rfl
      · rw [if_neg flying]
        rfl
      · simp [AckSweep.tally]

theorem acks (limit : Nat) : Acks SentPacket.pktNum (ackPacket limit) Matches AckSweep.tally limit where
  number _ _ fits := fits.number
  past reached := by rw [ackPacket, if_neg (Nat.not_lt.mpr reached)]
  again fits resolved before known := ackPacket_again fits resolved before known
  first fits before room := ackPacket_first fits before room

def lossBy (pktThresh : Option Nat) (lostSendTime : Int) (largestAcked : Nat) (sent : Sent) : Bool :=
  decide (sent.timeSent ≤ lostSendTime) || pktThresh.any fun thresh => largestAcked ≥ sent.pktNum + thresh

theorem losePacket_lost {lossDelay largestAcked : Nat} {pktThresh : Option Nat} {lostSendTime : Int}
    {sweep : LossSweep} {sent : Sent} (known : (SentPacket.of sent).pktNum ≤ largestAcked)
    (late : lossBy pktThresh lostSendTime largestAcked sent = true) (room : Sent.count [sent] ≤ sweep.tally.count) :
    ∃ next new, losePacket lossDelay pktThresh lostSendTime largestAcked sweep (.of sent) = some (next, new, true) ∧
      Matches new (sent, .lost) ∧ Gains sweep.tally next.tally [sent] := by
  rw [Sent.count_singleton] at room
  rw [losePacket, if_neg (Nat.not_lt.mpr known)]
  show ∃ next new, (if lossBy pktThresh lostSendTime largestAcked sent = true then _ else _) = some (next, new, true) ∧ _
  rw [if_pos late]
  simp only [SentPacket.of, SentStatus.lose]
  by_cases flying : sent.inFlight = true
  · rw [if_pos flying] at room
    have counts : subChecked sweep.pktsInFlight 1 = some (sweep.pktsInFlight - 1) := subChecked_of_le room
    by_cases probe : sent.isPmtudProbe = true
    · simp only [if_pos flying, if_pos probe, counts]
      refine ⟨_, _, rfl, .resolved rfl rfl nofun, Gains.single ?_ ?_ rfl fun number => ?_⟩
      · rw [if_pos flying]
        exact Nat.sub_add_cancel room
      · rw [if_pos flying]
        exact (Nat.add_assoc _ _ _).symm
      · simp [LossSweep.tally, or_assoc]
    · simp only [if_pos flying, if_neg probe, counts]
      refine ⟨_, _, rfl, .resolved rfl rfl nofun, Gains.single ?_ ?_ rfl fun number => ?_⟩
      · rw [if_pos flying]
        exact Nat.sub_add_cancel room
      · rw [if_pos flying]
        exact Nat.add_right_comm _ _ _
      · simp [LossSweep.tally, or_right_comm, or_assoc]
  · simp only [if_neg flying]
    refine ⟨_, _, rfl, .resolved rfl rfl nofun, Gains.single ?_ ?_ rfl fun number => ?_⟩
    · rw [if_neg flying]
      rfl
    · rw [if_neg flying]
      rfl
    · simp [LossSweep.tally, or_right_comm, or_assoc]

theorem loses (lossDelay largestAcked : Nat) (pktThresh : Option Nat) (lostSendTime : Int) :
    Turn Matches LossSweep.tally .lost (fun _ => True) (fun _ => False)
      (losePacket lossDelay pktThresh lostSendTime largestAcked) where
  turn {sweep pkt entry} fits room := by
    by_cases known : pkt.pktNum ≤ largestAcked
    · cases fits with
      | @resolved _ sent fate number was settled =>
        refine ⟨sweep, pkt, true, ?_, .inl ⟨rfl, .resolved number was settled, nofun, nofun⟩⟩
        rw [losePacket, if_neg (Nat.not_lt.mpr known)]
        obtain ⟨pktNum, status⟩ := pkt
        cases status with
        | sent => cases was
        | acked => rfl
        | lost => rfl
      | @unresolved sent fresh =>
        cases late : lossBy pktThresh lostSendTime largestAcked sent with
        | true =>
          obtain ⟨next, new, turned, lost, gains⟩ := losePacket_lost known late room
          exact ⟨next, new, true, turned, .inr ⟨sent, rfl, rfl, trivial, lost, gains⟩⟩
        | false =>
          rw [losePacket, if_neg (Nat.not_lt.mpr known)]
          show ∃ next new goesOn, (if lossBy pktThresh lostSendTime largestAcked sent = true then _ else _) =
            some (next, new, goesOn) ∧ _
          rw [if_neg (Bool.eq_false_iff.mp late)]
          exact ⟨_, _, false, rfl, .inl ⟨rfl, .unresolved fresh, nofun, nofun⟩⟩
    · refine ⟨sweep, pkt, false, ?_, .inl ⟨rfl, fits, nofun, nofun⟩⟩
      rw [losePacket, if_pos (Nat.not_le.mp known)]

def space (epoch : RecoveryEpoch) : Space := ⟨epoch.ackedFrames, epoch.lostFrames⟩

def packetSpace (epoch : RecoveryEpoch) : PacketSpace SentPacket :=
  ⟨epoch.sentPackets, epoch.pktsInFlight, epoch.timeOfLastAckElicitingPacket, epoch.space⟩

abbrev Tracks (epoch : RecoveryEpoch) (book : Book) : Prop := epoch.packetSpace.Tracks Matches book

variable {epoch : RecoveryEpoch} {book : Book}

section

variable (tracks : Tracks epoch book)

include tracks

theorem Tracks.drain : Tracks epoch.drainAckedAndLostPackets book := by
  refine ⟨tracks.kept.drain fun pkt entry fits leaves => ?_, tracks.count, tracks.last⟩
  cases fits with
  | resolved _ _ settled => exact settled
  | unresolved => cases leaves

theorem detectAndRemoveAckedPackets_spec {ranges : RangeSet} {skipPn : Option Nat}
    (acceptable : PacketSpace.Acceptable ranges skipPn) (wrap : Nat) :
    ∃ next acked result, epoch.detectAndRemoveAckedPackets ranges skipPn wrap = some (next, acked, .ok result) ∧
      epoch.packetSpace.Resolves Matches next.packetSpace book (book.acknowledge ranges.iter) result.ackedBytes ∧
      (acked = [] → result.ackedBytes = 0) ∧ book.NewlyAcked ranges.iter (acked.map (·.pktNum)) := by
  obtain ⟨largest, nonempty⟩ := Option.isSome_iff_exists.mp acceptable.1.1
  obtain ⟨sweep, swept, looped, resolves, nothing, numbers⟩ := PacketSpace.Tracks.ackRanges tracks
    (acks (max (epoch.largestAckedPacket.getD 0) largest)) acceptable nonempty
    ⟨epoch.pktsInFlight, epoch.ackedFrames, [], ⟨0, 0, none, false⟩⟩ ⟨rfl, rfl, rfl, rfl⟩ wrap
  dsimp only [packetSpace] at looped
  simp only [detectAndRemoveAckedPackets, nonempty, Option.bind_eq_bind, Option.bind_some, looped]
  refine ⟨_, _, _, rfl, ⟨?_, resolves.moves, resolves.bytes⟩, ?_, numbers⟩
  · refine Tracks.drain ?_
    exact ⟨resolves.tracks.kept, resolves.tracks.count, resolves.tracks.last⟩
  · exact fun silent => nothing (List.map_eq_nil_iff.mpr silent)

theorem detectAndRemoveLostPackets_spec (lossDelay : Nat) (pktThresh : Option Nat) (now : Int) :
    ∃ next lost loss, epoch.detectAndRemoveLostPackets lossDelay pktThresh now = some (next, lost, loss) ∧
      epoch.packetSpace.Resolves Matches next.packetSpace book
        (book.lose (lost.map (·.packetNumber) ++ loss.pmtudLostPackets)) (loss.lostBytes + loss.pmtudLostBytes) := by
  obtain ⟨sweep, swept, looped, resolves⟩ := PacketSpace.Tracks.lose tracks
    (loses lossDelay (epoch.largestAckedPacket.getD 0) pktThresh (now - lossDelay))
    ⟨epoch.pktsInFlight, epoch.lostFrames, none, [], 0, 0, []⟩ ⟨rfl, rfl, rfl, rfl⟩
  dsimp only [packetSpace] at looped
  simp only [detectAndRemoveLostPackets, looped, Option.bind_eq_bind, Option.bind_some]
  exact ⟨_, sweep.newlyLost, _, rfl, resolves⟩

end

def unresolvedPacket (pkt : SentPacket) : Option Sent :=
  match pkt.status with
  | .sent timeSent ackEliciting inFlight hasData isPmtudProbe sentBytes frames =>
    some ⟨pkt.pktNum, frames, timeSent, none, none, sentBytes, ackEliciting, inFlight, hasData, isPmtudProbe⟩
  | _ => none

def unresolved (epoch : RecoveryEpoch) : List Sent := epoch.sentPackets.filterMap unresolvedPacket

theorem Tracks.unresolved_eq (tracks : Tracks epoch book) : epoch.unresolved = book.unresolved := by
  refine tracks.kept.unresolved_eq fun pkt entry fits => ?_
  cases fits with
  | @unresolved sent fresh =>
    obtain ⟨pktNum, frames, timeSent, timeAcked, timeLost, size, ackEliciting, inFlight, hasData, isProbe⟩ := sent
    cases fresh.unacked
    cases fresh.unlost
    rfl
  | resolved _ known settled =>
    obtain ⟨pktNum, status⟩ := pkt
    rw [if_neg settled]
    cases status with
    | sent => cases known
    | acked => rfl
    | lost => rfl

end RecoveryEpoch

end Quiche.Gcongestion
