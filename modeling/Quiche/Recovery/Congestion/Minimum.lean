import Quiche.Recovery.Congestion

namespace Quiche.Controlled

open Data Legacy

variable {mulF64 : Nat → Rat → Nat} {controlled next : Controlled} {cc : Congestion}

/-- The window holds the minimum of two packets. -/
def Roomy (controlled : Controlled) : Prop := minimumWindowPackets * controlled.maxDatagramSize ≤ controlled.cwnd

/-- The window does not shrink. -/
structure Raises (cc next : Congestion) : Prop where
  window : cc.congestionWindow ≤ next.congestionWindow
  packets : next.initialCongestionWindowPackets = cc.initialCongestionWindowPackets

namespace Raises

variable {middle last : Congestion}

theorem refl (cc : Congestion) : Raises cc cc := ⟨Nat.le_refl _, rfl⟩

theorem trans (first : Raises cc middle) (second : Raises middle last) : Raises cc last :=
  ⟨Nat.le_trans first.window second.window, second.packets.trans first.packets⟩

end Raises

section Changes

variable {bytesInFlight : Nat} {now : Int}

theorem onPacketSent_raises (cc : Congestion) (bytesInFlight sentBytes : Nat) (now : Int) (inFlight : Bool) :
    Raises cc (cc.onPacketSent bytesInFlight sentBytes now inFlight) := by
  rw [Congestion.onPacketSent]
  split
  · have kept : Raises cc ((cc.updateAppLimited
        (decide (bytesInFlight + sentBytes < cc.congestionWindow))).ccOnPacketSent bytesInFlight now) := by
      rw [Congestion.ccOnPacketSent]
      split
      · exact ⟨Nat.le_refl _, rfl⟩
      · exact ⟨Nat.le_refl _, rfl⟩
    exact ⟨kept.window, kept.packets⟩
  · exact .refl cc

theorem rollback_raises (cc : Congestion) : Raises cc cc.rollback.1 := by
  rw [Congestion.rollback]
  split
  · exact .refl cc
  dsimp only
  split
  · exact .refl cc
  split
  · exact .refl cc
  · rename_i below
    exact ⟨Nat.le_of_lt (Nat.not_le.mp below), rfl⟩

theorem checkpoint_raises (cc : Congestion) : Raises cc cc.checkpoint := by
  rw [Congestion.checkpoint]
  split
  · exact .refl cc
  · exact ⟨Nat.le_refl _, rfl⟩

theorem renoOnPacketAcked_raises (cc : Congestion) (packet : Acked) (choice : AckChoice) :
    Raises cc (cc.renoOnPacketAcked packet choice) := by
  rw [Congestion.renoOnPacketAcked]
  split
  · exact .refl cc
  split
  · exact .refl cc
  split
  · exact ⟨Nat.le_add_right _ _, rfl⟩
  · dsimp only
    split
    · exact ⟨Nat.le_add_right _ _, rfl⟩
    · exact ⟨Nat.le_refl _, rfl⟩

theorem cubicSlowStart_raises (cc : Congestion) (packet : Acked) (choice : AckChoice) :
    Raises cc (cc.cubicSlowStart packet choice) := by
  have grown : Raises cc (if cc.bytesAckedSl + packet.size ≥ cc.maxDatagramSize then
      { cc with
        bytesAckedSl := cc.bytesAckedSl + packet.size - cc.maxDatagramSize
        congestionWindow := cc.congestionWindow + cc.slowStartInc choice }
      else { cc with bytesAckedSl := cc.bytesAckedSl + packet.size }) := by
    split
    · exact ⟨Nat.le_add_right _ _, rfl⟩
    · exact ⟨Nat.le_refl _, rfl⟩
  rw [Congestion.cubicSlowStart]
  split
  · exact ⟨grown.window, grown.packets⟩
  · exact grown

theorem cubicAvoidance_raises (cc : Congestion) (choice : AckChoice) (now : Int) :
    Raises cc (cc.cubicAvoidance choice now) := by
  rw [Congestion.cubicAvoidance]
  dsimp only
  split
  · exact ⟨Nat.le_add_right _ _, rfl⟩
  · exact ⟨Nat.le_refl _, rfl⟩

theorem cubicOnPacketAcked_raises {packet : Acked} {choice : AckChoice} {next : Congestion}
    (acked : cc.cubicOnPacketAcked bytesInFlight packet choice now = some next) : Raises cc next := by
  rw [Congestion.cubicOnPacketAcked] at acked
  split at acked
  · cases acked
    exact ⟨Nat.le_refl _, rfl⟩
  split at acked
  · cases acked
    exact .refl cc
  obtain ⟨spurious, _, acked⟩ := Option.bind_eq_some_iff.mp acked
  have kept : Raises cc (if spurious = true then cc.rollback else (cc, false)).1 := by
    split
    · exact rollback_raises cc
    · exact .refl cc
  generalize (if spurious = true then cc.rollback else (cc, false)) = undone at acked kept
  obtain ⟨undone, rolledBack⟩ := undone
  cases rolledBack with
  | true =>
    cases acked
    exact kept
  | false =>
    by_cases slowStart : undone.congestionWindow < undone.ssthresh
    · simp only [Bool.false_eq_true, if_false, if_pos slowStart] at acked
      cases acked
      exact kept.trans (cubicSlowStart_raises _ packet choice)
    · simp only [Bool.false_eq_true, if_false, if_neg slowStart] at acked
      cases acked
      exact kept.trans (cubicAvoidance_raises _ choice now)

theorem onPacketsAcked_raises {packets : List Acked} {choices : Nat → AckChoice} {next : Congestion}
    (acked : cc.onPacketsAcked bytesInFlight packets choices now = some next) : Raises cc next := by
  induction packets generalizing cc with
  | nil =>
    cases acked
    exact .refl _
  | cons packet rest ih =>
    obtain ⟨middle, first, acked⟩ := Option.bind_eq_some_iff.mp acked
    change cc.onPacketAcked bytesInFlight packet (choices packet.pktNum) now = some middle at first
    rw [Congestion.onPacketAcked] at first
    split at first
    · cases first
      exact (renoOnPacketAcked_raises cc packet _).trans (ih acked)
    · exact (cubicOnPacketAcked_raises first).trans (ih acked)

end Changes

section Losses

/-- What a congestion event leaves of the window holds two datagrams of `size`: congestion control clamps it
with a datagram size of its own. -/
def EventFits (cc : Congestion) (size : Nat) (loss : LossDetectionResult) (choice : LossChoice) : Prop :=
  ∀ pkt ∈ loss.largestLostPkt, cc.inCongestionRecovery pkt.timeSent = false →
    minimumWindowPackets * size ≤ max choice.window (cc.maxDatagramSize * minimumWindowPackets)

theorem onPacketsLost_fits {size : Nat} {loss : LossDetectionResult} {choice : LossChoice} (bytesInFlight : Nat)
    (now : Int) (roomy : minimumWindowPackets * size ≤ cc.congestionWindow) (fits : EventFits cc size loss choice) :
    minimumWindowPackets * size ≤ (cc.onPacketsLost bytesInFlight loss choice now).congestionWindow ∧
      (cc.onPacketsLost bytesInFlight loss choice now).initialCongestionWindowPackets =
        cc.initialCongestionWindowPackets := by
  rw [Congestion.onPacketsLost]
  cases lost : loss.largestLostPkt with
  | none => exact ⟨roomy, rfl⟩
  | some pkt =>
    dsimp only
    cases recovering : cc.inCongestionRecovery pkt.timeSent with
    | true =>
      rw [if_pos rfl, Congestion.congestionEvent, if_pos recovering]
      exact ⟨roomy, rfl⟩
    | false =>
      have same : cc.checkpoint.inCongestionRecovery pkt.timeSent = false ∧
          cc.checkpoint.maxDatagramSize = cc.maxDatagramSize := by
        rw [Congestion.checkpoint]
        split
        · exact ⟨recovering, rfl⟩
        · exact ⟨recovering, rfl⟩
      have window := fits pkt lost recovering
      rw [← same.2] at window
      have packets := (checkpoint_raises cc).packets
      rw [if_neg Bool.false_ne_true, Congestion.congestionEvent, if_neg (by rw [same.1]; exact Bool.false_ne_true)]
      dsimp only
      split
      · exact ⟨window, packets⟩
      · exact ⟨window, packets⟩

end Losses

section Steps

variable {ranges : RangeSet} {ackDelay : Nat} {epoch : Epoch} {handshakeStatus : HandshakeStatus} {now : Int}
  {skipPn : Option Nat} {wrap : Nat} {choices : Nat → AckChoice} {choice : LossChoice}

def undo (result : AckedDetectionResult) (cc : Congestion) : Congestion :=
  if result.hasInFlightSpuriousLoss then cc.rollback.1 else cc

theorem undo_raises (result : AckedDetectionResult) (cc : Congestion) : Raises cc (undo result cc) := by
  unfold undo
  split
  · exact rollback_raises cc
  · exact .refl cc

/-- The reductions of the window in the operation leave room for two packets of the size that is then in use. -/
def Fits (mulF64 : Nat → Rat → Nat) (controlled : Controlled) : Op → Prop
  | .ackReceived ranges ackDelay epoch handshakeStatus now skipPn wrap _ choice => ∀ before result loss,
      controlled.detectAckedPackets mulF64 ranges ackDelay epoch handshakeStatus now skipPn wrap choice =
        some (before, .ok (some (result, loss))) →
      EventFits (undo result controlled.congestion) controlled.maxDatagramSize loss choice
  | .lossDetectionTimeout _ now choice => ∀ recovery loss,
      controlled.recovery.lossTimeAndSpace.1.isSome →
      controlled.recovery.detectLostPackets mulF64 controlled.recovery.lossTimeAndSpace.2 now = some (recovery, loss) →
      EventFits controlled.congestion controlled.maxDatagramSize loss choice
  | .pathChange epoch now choice => ∀ recovery loss,
      controlled.recovery.detectLostPackets mulF64 epoch now = some (recovery, loss) →
      EventFits controlled.congestion controlled.maxDatagramSize loss choice
  | .pmtudUpdateMaxDatagramSize size =>
    controlled.cwnd = controlled.maxDatagramSize * controlled.congestion.initialCongestionWindowPackets ∨
      minimumWindowPackets * size ≤ controlled.cwnd
  | _ => True

/-- The window holds two packets, and the initial one does. -/
structure Ample (controlled : Controlled) : Prop where
  roomy : controlled.Roomy
  packets : minimumWindowPackets ≤ controlled.congestion.initialCongestionWindowPackets

section

variable (ample : controlled.Ample)

include ample

theorem Ample.raised (raises : Raises controlled.congestion next.congestion)
    (size : next.maxDatagramSize = controlled.maxDatagramSize) : next.Ample where
  roomy := by
    rw [Roomy, size]
    exact Nat.le_trans ample.roomy raises.window
  packets := raises.packets ▸ ample.packets

theorem detectLostPackets_ample {loss : LossDetectionResult}
    (fits : ∀ recovery loss, controlled.recovery.detectLostPackets mulF64 epoch now = some (recovery, loss) →
      EventFits controlled.congestion controlled.maxDatagramSize loss choice)
    (lost : controlled.detectLostPackets mulF64 epoch choice now = some (next, loss)) : next.Ample := by
  obtain ⟨⟨recovery, found⟩, detected, lost⟩ := Option.bind_eq_some_iff.mp lost
  cases lost
  obtain ⟨window, packets⟩ := onPacketsLost_fits controlled.bytesInFlight now ample.roomy
    (fits recovery loss detected)
  exact ⟨window, packets ▸ ample.packets⟩

theorem detectAckedPackets_ample {detected : Except Error (Option (AckedDetectionResult × LossDetectionResult))}
    (fits : ∀ before result loss,
      controlled.detectAckedPackets mulF64 ranges ackDelay epoch handshakeStatus now skipPn wrap choice =
        some (before, .ok (some (result, loss))) →
      EventFits (undo result controlled.congestion) controlled.maxDatagramSize loss choice)
    (prelude : controlled.detectAckedPackets mulF64 ranges ackDelay epoch handshakeStatus now skipPn wrap choice =
      some (next, detected)) : next.Ample := by
  have prelude' := prelude
  obtain ⟨⟨state, newlyAcked, outcome⟩, _, prelude⟩ := Option.bind_eq_some_iff.mp prelude
  cases outcome with
  | error error =>
    cases prelude
    exact ample.raised (.refl _) rfl
  | ok result =>
    dsimp only at prelude
    have undone := undo_raises result controlled.congestion
    unfold undo at undone
    split at prelude
    · cases prelude
      exact ample.raised undone rfl
    · obtain ⟨⟨middle, loss⟩, lost, prelude⟩ := Option.bind_eq_some_iff.mp prelude
      cases prelude
      refine detectLostPackets_ample ?_ (fun recovery found detected => ?_) lost
      · exact ample.raised undone rfl
      · obtain ⟨⟨_, other⟩, again, same⟩ := Option.bind_eq_some_iff.mp lost
        cases same
        cases detected.symm.trans again
        exact fits _ _ _ prelude'

theorem pmtudUpdateMaxDatagramSize_ample {size : Nat}
    (fits : controlled.cwnd = controlled.maxDatagramSize * controlled.congestion.initialCongestionWindowPackets ∨
      minimumWindowPackets * size ≤ controlled.cwnd) : (controlled.pmtudUpdateMaxDatagramSize size).Ample := by
  refine ⟨?_, ample.packets⟩
  show minimumWindowPackets * size ≤
    if controlled.cwnd = controlled.maxDatagramSize * controlled.congestion.initialCongestionWindowPackets
    then size * controlled.congestion.initialCongestionWindowPackets else controlled.cwnd
  split
  · rw [Nat.mul_comm]
    exact Nat.mul_le_mul_left size ample.packets
  · rename_i moved
    exact fits.resolve_left moved

theorem step_ample {op : Op} (fits : controlled.Fits mulF64 op)
    (stepped : controlled.step mulF64 op = some next) : next.Ample := by
  cases op with
  | packetSent pkt epoch handshakeStatus now packetSendTime =>
    cases stepped
    exact ample.raised (onPacketSent_raises _ _ _ _ _) rfl
  | ackReceived ranges ackDelay epoch handshakeStatus now skipPn wrap choices choice =>
    obtain ⟨⟨final, result⟩, received, same⟩ := Option.map_eq_some_iff.mp stepped
    cases same
    obtain ⟨⟨before, detected⟩, prelude, received⟩ := Option.bind_eq_some_iff.mp received
    have between := detectAckedPackets_ample ample fits prelude
    cases detected with
    | error error =>
      cases received
      exact between
    | ok detected =>
      cases detected with
      | none =>
        cases received
        exact between
      | some detected =>
        obtain ⟨congestion, acked, received⟩ := Option.bind_eq_some_iff.mp received
        cases received
        exact between.raised (onPacketsAcked_raises acked) rfl
  | lossDetectionTimeout handshakeStatus now choice =>
    rw [step, onLossDetectionTimeout] at stepped
    dsimp only at stepped
    split at stepped
    · rename_i due
      obtain ⟨⟨middle, loss⟩, lost, stepped⟩ := Option.bind_eq_some_iff.mp stepped
      cases stepped
      have between := detectLostPackets_ample ample (fun recovery loss => fits recovery loss due) lost
      exact ⟨between.roomy, between.packets⟩
    · cases stepped
      exact ample.raised (.refl _) rfl
  | pathChange epoch now choice =>
    obtain ⟨⟨final, loss⟩, lost, same⟩ := Option.map_eq_some_iff.mp stepped
    cases same
    exact detectLostPackets_ample ample fits lost
  | pktNumSpaceDiscarded epoch handshakeStatus now =>
    cases stepped
    exact ample.raised (.refl _) rfl
  | pingSent epoch =>
    cases stepped
    exact ample.raised (.refl _) rfl
  | updateAppLimited value =>
    cases stepped
    exact ample.raised ⟨Nat.le_refl _, rfl⟩ rfl
  | pmtudUpdateMaxDatagramSize size =>
    cases stepped
    exact pmtudUpdateMaxDatagramSize_ample ample fits
  | updateMaxDatagramSize size =>
    cases stepped
    refine pmtudUpdateMaxDatagramSize_ample ample (.inr ?_)
    exact Nat.le_trans (Nat.mul_le_mul_left _ (Nat.min_le_left _ _)) ample.roomy

end

end Steps

section Runs

variable {algorithm : CcAlgorithm} {size packets initialRtt maxAckDelay : Nat} {start : Int}

theorem window_covers_minimum (mulF64 : Nat → Rat → Nat) (configured : 2 ≤ packets) {ops : List Op} {final : Controlled}
    (fits : (machine mulF64).Guarded (Fits mulF64) (new algorithm size packets initialRtt maxAckDelay start) ops)
    (completed : (machine mulF64).run (new algorithm size packets initialRtt maxAckDelay start) ops = some final) :
    2 * final.maxDatagramSize ≤ final.cwnd := by
  have initial : (new algorithm size packets initialRtt maxAckDelay start).Ample := by
    refine ⟨?_, configured⟩
    show 2 * size ≤ size * packets
    rw [Nat.mul_comm]
    exact Nat.mul_le_mul_left size configured
  exact ((machine mulF64).run_keeps_of_guarded (fun _ _ _ ample fits stepped => step_ample ample fits stepped) initial
    fits completed).roomy

private def rounded (duration : Nat) (ratio : Rat) : Nat := (duration * ratio).floor.toNat

def enlarged (window : Nat) : List Op :=
  let status : HandshakeStatus := ⟨true, true, true⟩
  let sent (pktNum : Nat) : Op :=
    .packetSent ⟨pktNum, [], 0, none, none, 700, true, true, true, false⟩ .application status 0 0
  [.pmtudUpdateMaxDatagramSize 1500, sent 0, sent 1, sent 2, sent 3,
    .ackReceived (.inline ⟨[(3, 4)], 16⟩) 0 .application status 100000000 none 0 (fun _ => ⟨false, false, 0⟩)
      ⟨window, window / 2⟩]

theorem eventFits_of_window {loss : LossDetectionResult} {choice : LossChoice}
    (wide : minimumWindowPackets * size ≤ choice.window) : EventFits cc size loss choice :=
  fun _ _ _ => Nat.le_trans wide (Nat.le_max_left _ _)

theorem enlarged_fits : (machine rounded).Guarded (Fits rounded) (new .reno 1200 10 333000000 25000000 0)
    (enlarged 7500) := by
  refine ⟨.inl rfl, fun next stepped => ?_⟩
  cases stepped
  refine ⟨trivial, fun next stepped => ?_⟩
  cases stepped
  refine ⟨trivial, fun next stepped => ?_⟩
  cases stepped
  refine ⟨trivial, fun next stepped => ?_⟩
  cases stepped
  refine ⟨trivial, fun next stepped => ?_⟩
  cases stepped
  exact ⟨fun _ _ _ _ => eventFits_of_window (by decide), fun _ _ => trivial⟩

theorem window_covers_minimum_enlarged :
    ∃ final, (machine rounded).run (new .reno 1200 10 333000000 25000000 0) (enlarged 7500) = some final ∧
      2 * final.maxDatagramSize ≤ final.cwnd :=
  exists_reached_of (fun _ => True) (by decide +kernel) fun _ completed _ =>
    window_covers_minimum rounded (by decide) enlarged_fits completed

/-- Congestion control still clamps with the old size: two packets of 1200 bytes. -/
theorem window_below_minimum : ((machine rounded).run (new .reno 1200 2 333000000 25000000 0) (enlarged 1500)).map
      (fun final => (final.cwnd, 2 * final.maxDatagramSize)) = some (2400, 3000) := by
  decide +kernel

end Runs

end Quiche.Controlled
