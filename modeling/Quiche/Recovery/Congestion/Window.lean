import Quiche.Recovery.Congestion

namespace Quiche.Controlled

open Data Legacy

variable {mulF64 : Nat → Rat → Nat} {controlled next : Controlled} {cc : Congestion}

/-- What `cwnd_available` allows does not lead past the congestion window. -/
def Bounded (controlled : Controlled) : Prop := controlled.probes = false → controlled.bytesInFlight ≤ controlled.cwnd →
    controlled.bytesInFlight + controlled.cwndAvailable ≤ controlled.cwnd

instance (controlled : Controlled) : Decidable controlled.Bounded := inferInstanceAs (Decidable (_ → _ → _))

/-- Without probes and within the window, nothing is granted for retransmission. -/
def Spent (controlled : Controlled) : Prop :=
  controlled.probes = false → controlled.bytesInFlight ≤ controlled.cwnd → controlled.congestion.prr.sndCnt = 0

theorem bounded_iff_spent : controlled.Bounded ↔ controlled.Spent := by
  rw [Bounded, Spent]
  refine forall_congr' fun quiet => forall_congr' fun fits => ?_
  rw [cwndAvailable, if_neg (by simp [quiet])]
  omega

/-- None of the packets was sent before the current recovery began. -/
def AcksOutside (cc : Congestion) (bytesInFlight : Nat) (choices : Nat → AckChoice) (now : Int) : List Acked → Prop
  | [] => True
  | packet :: rest => cc.inCongestionRecovery packet.timeSent = false ∧
      ∀ next ∈ cc.onPacketAcked bytesInFlight packet (choices packet.pktNum) now,
        AcksOutside next bytesInFlight choices now rest

/-- With CUBIC, the operation acknowledges no packet that was sent before the current recovery began. -/
def OutsideRecovery (mulF64 : Nat → Rat → Nat) (controlled : Controlled) : Op → Prop
  | .ackReceived ranges ackDelay epoch handshakeStatus now skipPn wrap choices choice =>
    controlled.congestion.ccAlgorithm = .cubic → ∀ before detected,
      controlled.detectAckedPackets mulF64 ranges ackDelay epoch handshakeStatus now skipPn wrap choice =
        some (before, detected) →
      AcksOutside before.congestion before.bytesInFlight choices now before.recovery.newlyAcked
  | _ => True

/-- The step grants nothing for retransmission. -/
structure Grantless (cc next : Congestion) : Prop where
  algorithm : next.ccAlgorithm = cc.ccAlgorithm
  unsent : cc.prr.sndCnt = 0 → next.prr.sndCnt = 0

namespace Grantless

variable {middle last : Congestion}

theorem refl (cc : Congestion) : Grantless cc cc := ⟨rfl, id⟩

theorem trans (first : Grantless cc middle) (second : Grantless middle last) : Grantless cc last :=
  ⟨second.algorithm.trans first.algorithm, fun unsent => second.unsent (first.unsent unsent)⟩

end Grantless

section Changes

variable {bytesInFlight : Nat} {now : Int}

section

variable (cc)

theorem onPacketSent_grantless (bytesInFlight sentBytes : Nat) (now : Int) (inFlight : Bool) :
    Grantless cc (cc.onPacketSent bytesInFlight sentBytes now inFlight) := by
  rw [Congestion.onPacketSent]
  split
  · have kept : Grantless cc ((cc.updateAppLimited
        (decide (bytesInFlight + sentBytes < cc.congestionWindow))).ccOnPacketSent bytesInFlight now) := by
      rw [Congestion.ccOnPacketSent]
      split
      · exact ⟨rfl, id⟩
      · exact ⟨rfl, id⟩
    refine ⟨kept.algorithm, fun unsent => ?_⟩
    simp only [Prr.onPacketSent, kept.unsent unsent, Nat.zero_sub]
  · exact .refl cc

theorem rollback_grantless : Grantless cc cc.rollback.1 := by
  rw [Congestion.rollback]
  split
  · exact .refl cc
  · dsimp only
    split
    · exact .refl cc
    · split
      · exact .refl cc
      · exact ⟨rfl, id⟩

theorem checkpoint_grantless : Grantless cc cc.checkpoint := by
  rw [Congestion.checkpoint]
  split
  · exact .refl cc
  · exact ⟨rfl, id⟩

theorem congestionEvent_grantless (bytesInFlight : Nat) (timeSent : Int) (choice : LossChoice)
    (now : Int) : Grantless cc (cc.congestionEvent bytesInFlight timeSent choice now) := by
  rw [Congestion.congestionEvent]
  split
  · exact .refl cc
  · dsimp only
    split
    · exact ⟨rfl, id⟩
    · exact ⟨rfl, fun _ => rfl⟩

theorem onPacketsLost_grantless (bytesInFlight : Nat) (loss : LossDetectionResult)
    (choice : LossChoice) (now : Int) : Grantless cc (cc.onPacketsLost bytesInFlight loss choice now) := by
  rw [Congestion.onPacketsLost]
  dsimp only
  split
  · exact ⟨rfl, id⟩
  · rename_i pkt _
    have marked : Grantless cc (if cc.inCongestionRecovery pkt.timeSent then cc else cc.checkpoint) := by
      split
      · exact .refl cc
      · exact checkpoint_grantless cc
    have started := marked.trans (congestionEvent_grantless _ bytesInFlight pkt.timeSent choice now)
    exact ⟨started.algorithm, started.unsent⟩

theorem renoOnPacketAcked_grantless (packet : Acked) (choice : AckChoice) :
    Grantless cc (cc.renoOnPacketAcked packet choice) := by
  rw [Congestion.renoOnPacketAcked]
  split
  · exact .refl cc
  split
  · exact .refl cc
  split
  · exact ⟨rfl, id⟩
  · dsimp only
    split
    · exact ⟨rfl, id⟩
    · exact ⟨rfl, id⟩

theorem cubicSlowStart_grantless (packet : Acked) (choice : AckChoice) :
    Grantless cc (cc.cubicSlowStart packet choice) := by
  rw [Congestion.cubicSlowStart]
  split <;> split <;> exact ⟨rfl, id⟩

theorem cubicAvoidance_grantless (choice : AckChoice) (now : Int) :
    Grantless cc (cc.cubicAvoidance choice now) := by
  rw [Congestion.cubicAvoidance]
  dsimp only
  split <;> exact ⟨rfl, id⟩

end

theorem cubicOnPacketAcked_grantless {packet : Acked} {choice : AckChoice} {next : Congestion}
    (outside : cc.inCongestionRecovery packet.timeSent = false)
    (acked : cc.cubicOnPacketAcked bytesInFlight packet choice now = some next) : Grantless cc next := by
  rw [Congestion.cubicOnPacketAcked, if_neg (by simp [outside])] at acked
  split at acked
  · cases acked
    exact .refl cc
  obtain ⟨spurious, _, acked⟩ := Option.bind_eq_some_iff.mp acked
  have kept : Grantless cc (if spurious = true then cc.rollback else (cc, false)).1 := by
    split
    · exact rollback_grantless cc
    · exact .refl cc
  generalize (if spurious = true then cc.rollback else (cc, false)) = undone at acked kept
  obtain ⟨undone, rolledBack⟩ := undone
  cases rolledBack with
  | true =>
    cases acked
    exact kept
  | false =>
    by_cases slowStart : undone.congestionWindow < undone.ssthresh
    · simp only [Bool.false_eq_true, if_false, if_pos slowStart] at acked
      cases acked
      exact kept.trans (cubicSlowStart_grantless _ packet choice)
    · simp only [Bool.false_eq_true, if_false, if_neg slowStart] at acked
      cases acked
      exact kept.trans (cubicAvoidance_grantless _ choice now)

theorem onPacketsAcked_grantless {packets : List Acked} {choices : Nat → AckChoice} {next : Congestion}
    (outside : cc.ccAlgorithm = .cubic → AcksOutside cc bytesInFlight choices now packets)
    (acked : cc.onPacketsAcked bytesInFlight packets choices now = some next) : Grantless cc next := by
  induction packets generalizing cc with
  | nil =>
    cases acked
    exact .refl _
  | cons packet rest ih =>
    obtain ⟨middle, first, acked⟩ := Option.bind_eq_some_iff.mp acked
    change cc.onPacketAcked bytesInFlight packet (choices packet.pktNum) now = some middle at first
    have grantless : Grantless cc middle := by
      cases algorithm : cc.ccAlgorithm with
      | reno =>
        rw [Congestion.onPacketAcked, algorithm] at first
        cases first
        exact renoOnPacketAcked_grantless cc packet _
      | cubic =>
        have outside := (outside algorithm).1
        rw [Congestion.onPacketAcked, algorithm] at first
        exact cubicOnPacketAcked_grantless outside first
    refine grantless.trans (ih (fun algorithm => ?_) acked)
    exact (outside (grantless.algorithm.symm.trans algorithm)).2 middle first

end Changes

section Steps

theorem detectLostPackets_grantless {epoch : Epoch} {choice : LossChoice} {now : Int} {loss : LossDetectionResult}
    (lost : controlled.detectLostPackets mulF64 epoch choice now = some (next, loss)) :
    Grantless controlled.congestion next.congestion := by
  obtain ⟨⟨recovery, found⟩, _, lost⟩ := Option.bind_eq_some_iff.mp lost
  cases lost
  exact onPacketsLost_grantless _ _ _ _ _

theorem detectAckedPackets_grantless {ranges : RangeSet} {ackDelay : Nat} {epoch : Epoch}
    {handshakeStatus : HandshakeStatus} {now : Int} {skipPn : Option Nat} {wrap : Nat} {choice : LossChoice}
    {detected : Except Error (Option (AckedDetectionResult × LossDetectionResult))}
    (prelude : controlled.detectAckedPackets mulF64 ranges ackDelay epoch handshakeStatus now skipPn wrap choice =
      some (next, detected)) : Grantless controlled.congestion next.congestion := by
  obtain ⟨⟨state, newlyAcked, outcome⟩, _, prelude⟩ := Option.bind_eq_some_iff.mp prelude
  cases outcome with
  | error error =>
    cases prelude
    exact .refl _
  | ok result =>
    dsimp only at prelude
    have undone : Grantless controlled.congestion
        (if result.hasInFlightSpuriousLoss then controlled.congestion.rollback.1 else controlled.congestion) := by
      split
      · exact rollback_grantless _
      · exact .refl _
    split at prelude
    · cases prelude
      exact undone
    · obtain ⟨⟨middle, loss⟩, lost, prelude⟩ := Option.bind_eq_some_iff.mp prelude
      cases prelude
      exact undone.trans (detectLostPackets_grantless lost)

theorem step_grantless {op : Op} (outside : controlled.OutsideRecovery mulF64 op)
    (stepped : controlled.step mulF64 op = some next) : Grantless controlled.congestion next.congestion := by
  cases op with
  | packetSent pkt epoch handshakeStatus now packetSendTime =>
    cases stepped
    exact onPacketSent_grantless _ _ _ _ _
  | ackReceived ranges ackDelay epoch handshakeStatus now skipPn wrap choices choice =>
    obtain ⟨⟨final, result⟩, received, same⟩ := Option.map_eq_some_iff.mp stepped
    cases same
    obtain ⟨⟨before, detected⟩, prelude, received⟩ := Option.bind_eq_some_iff.mp received
    have grantless := detectAckedPackets_grantless prelude
    cases detected with
    | error error =>
      cases received
      exact grantless
    | ok detected =>
      cases detected with
      | none =>
        cases received
        exact grantless
      | some detected =>
        obtain ⟨congestion, acked, received⟩ := Option.bind_eq_some_iff.mp received
        cases received
        refine grantless.trans (onPacketsAcked_grantless (fun algorithm => ?_) acked)
        exact outside (grantless.algorithm.symm.trans algorithm) before _ prelude
  | lossDetectionTimeout handshakeStatus now choice =>
    rw [step, onLossDetectionTimeout] at stepped
    dsimp only at stepped
    split at stepped
    · obtain ⟨⟨middle, loss⟩, lost, stepped⟩ := Option.bind_eq_some_iff.mp stepped
      cases stepped
      have grantless := detectLostPackets_grantless lost
      exact grantless
    · cases stepped
      exact .refl _
  | pathChange epoch now choice =>
    obtain ⟨⟨final, loss⟩, lost, same⟩ := Option.map_eq_some_iff.mp stepped
    cases same
    exact detectLostPackets_grantless lost
  | pktNumSpaceDiscarded epoch handshakeStatus now =>
    cases stepped
    exact .refl _
  | pingSent epoch =>
    cases stepped
    exact .refl _
  | updateAppLimited value =>
    cases stepped
    exact ⟨rfl, id⟩
  | pmtudUpdateMaxDatagramSize size =>
    cases stepped
    exact ⟨rfl, id⟩
  | updateMaxDatagramSize size =>
    cases stepped
    exact ⟨rfl, id⟩

end Steps

section Runs

variable {algorithm : CcAlgorithm} {size packets initialRtt maxAckDelay : Nat} {start : Int}

theorem run_unsent {ops : List Op} {final : Controlled} (guarded : (machine mulF64).Guarded (OutsideRecovery mulF64)
      (new algorithm size packets initialRtt maxAckDelay start) ops)
    (completed : (machine mulF64).run (new algorithm size packets initialRtt maxAckDelay start) ops = some final) :
    final.congestion.prr.sndCnt = 0 := by
  have preserved : ∀ controlled op next, controlled.congestion.prr.sndCnt = 0 →
      OutsideRecovery mulF64 controlled op → (machine mulF64).step controlled op = some next →
      next.congestion.prr.sndCnt = 0 :=
    fun _ _ _ unsent outside stepped => (step_grantless outside stepped).unsent unsent
  exact (machine mulF64).run_keeps_of_guarded preserved rfl guarded completed

theorem run_outside_of_reno {ops : List Op} (reno : controlled.congestion.ccAlgorithm = .reno) :
    (machine mulF64).Guarded (OutsideRecovery mulF64) controlled ops := by
  induction ops generalizing controlled with
  | nil => trivial
  | cons op ops ih =>
    have outside : controlled.OutsideRecovery mulF64 op := by
      cases op with
      | ackReceived => exact fun cubic => by simp [reno] at cubic
      | _ => trivial
    refine ⟨outside, fun next stepped => ih ?_⟩
    rw [(step_grantless outside stepped).algorithm, reno]

/-- In every state of every run the window bounds new data exactly when PRR has nothing left to
send beside it. That is so in every run that acknowledges no packet of a recovery period, and in
every run with Reno. -/
theorem window_bounds_new_data {ops : List Op} {final : Controlled}
    (completed : (machine mulF64).run (new algorithm size packets initialRtt maxAckDelay start) ops = some final) :
    (final.Bounded ↔ final.Spent) ∧
      ((machine mulF64).Guarded (OutsideRecovery mulF64) (new algorithm size packets initialRtt maxAckDelay start) ops →
        final.Bounded) ∧ (algorithm = .reno → final.Bounded) := by
  have bounded : (machine mulF64).Guarded (OutsideRecovery mulF64)
      (new algorithm size packets initialRtt maxAckDelay start) ops → final.Bounded :=
    fun guarded => bounded_iff_spent.mpr fun _ _ => run_unsent guarded completed
  exact ⟨bounded_iff_spent, bounded, fun reno => bounded (run_outside_of_reno reno)⟩

private def scaled (duration : Nat) (ratio : Rat) : Nat := (duration * ratio).floor.toNat

def leftover : List Op :=
  let status : HandshakeStatus := ⟨true, true, true⟩
  let pkt (pktNum : Nat) (timeSent : Int) : Sent :=
    ⟨pktNum, [], timeSent, none, none, 1200, true, true, true, false⟩
  let ack (first last : Nat) (now : Int) : Op :=
    .ackReceived (.inline ⟨[(first, last + 1)], 16⟩) 0 .application status now none 0
      (fun _ => ⟨false, false, 0⟩) ⟨8400, 0⟩
  (List.range 10).map (fun pktNum => .packetSent (pkt pktNum 0) .application status 0 0) ++
    [ack 9 9 100000000, .packetSent (pkt 10 150000000) .application status 150000000 150000000, ack 7 10 250000000]

theorem window_bounds_new_data_reno :
    ∃ final, (machine scaled).run (new .reno 1200 10 333000000 25000000 0) leftover = some final ∧ final.Bounded := by
  obtain ⟨final, completed⟩ : ∃ final,
      (machine scaled).run (new .reno 1200 10 333000000 25000000 0) leftover = some final :=
    Option.isSome_iff_exists.mp (by decide +kernel)
  exact ⟨final, completed, (window_bounds_new_data completed).2.2 rfl⟩

/-- PRR still allows three packets beside the window after the period is over. -/
theorem leftover_unbounded : ((machine scaled).run (new .cubic 1200 10 333000000 25000000 0) leftover).any
      (fun final => ¬ final.Bounded) := by
  decide +kernel

end Runs

end Quiche.Controlled
