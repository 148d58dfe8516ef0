import Quiche.Recovery.Gcongestion.Account
import Quiche.Recovery.Legacy.Account

namespace Quiche

open Data

/-- `Recovery`, which passes every operation on. -/
inductive Recovery where
  | legacy (recovery : LegacyRecovery)
  | gcongestion (recovery : GRecovery)

namespace Recovery

/-- `new_with_config`; the algorithm for congestion control decides which one is used. -/
def newWithConfig (gcongestionEnabled : Bool) (initialRtt maxAckDelay : Nat) (enableRelaxedLossThreshold : Bool)
    (now : Int) : Recovery :=
  if gcongestionEnabled then .gcongestion (.new initialRtt maxAckDelay enableRelaxedLossThreshold now)
  else .legacy (.new initialRtt maxAckDelay now)

def bytesInFlight : Recovery → BytesInFlight
  | legacy recovery => recovery.bytesInFlight
  | gcongestion recovery => recovery.bytesInFlight

/-- `in_flight_count` and `pkts_in_flight` -/
def inFlightCount (recovery : Recovery) (epoch : Epoch) : Nat :=
  match recovery with
  | legacy recovery => (recovery.epochs epoch).inFlightCount
  | gcongestion recovery => (recovery.epochs epoch).pktsInFlight

/-- The packets of `sent_packets` that are neither acknowledged nor lost. -/
def unresolved (recovery : Recovery) (epoch : Epoch) : List Sent :=
  match recovery with
  | legacy recovery => (recovery.epochs epoch).unresolved
  | gcongestion recovery => (recovery.epochs epoch).unresolved

/-- The frames in `acked_frames` or `lost_frames`. -/
def frames (recovery : Recovery) (epoch : Epoch) (fate : Fate) : List Frame :=
  match recovery with
  | legacy recovery => (recovery.epochs epoch).space.frames fate
  | gcongestion recovery => (recovery.epochs epoch).space.frames fate

/-- The numbers of the packets in `newly_acked`. -/
def newlyAcked : Recovery → List Nat
  | legacy recovery => recovery.newlyAcked.map (·.pktNum)
  | gcongestion recovery => recovery.newlyAcked.map (·.pktNum)

def lossTimeAndSpace : Recovery → Option Int × Epoch
  | legacy recovery => recovery.lossTimeAndSpace
  | gcongestion recovery => recovery.lossTimeAndSpace

def onPacketSent (recovery : Recovery) (pkt : Sent) (epoch : Epoch) (handshakeStatus : HandshakeStatus) (now : Int) :
    Option Recovery :=
  match recovery with
  | legacy recovery => some (legacy (recovery.onPacketSent pkt epoch handshakeStatus now))
  | gcongestion recovery => (recovery.onPacketSent pkt epoch handshakeStatus now).map gcongestion

def onAckReceived (mulF64 : Nat → Rat → Nat) (recovery : Recovery) (ranges : RangeSet) (ackDelay : Nat) (epoch : Epoch)
    (handshakeStatus : HandshakeStatus) (now : Int) (skipPn : Option Nat) (wrap : Nat) :
    Option (Recovery × Except Error (OnAckReceivedOutcome × List Nat)) :=
  match recovery with
  | legacy recovery =>
    (recovery.onAckReceived mulF64 ranges ackDelay epoch handshakeStatus now skipPn wrap).map
      fun (recovery, result) => (legacy recovery, result)
  | gcongestion recovery =>
    (recovery.onAckReceived mulF64 ranges ackDelay epoch handshakeStatus now skipPn wrap).map
      fun (recovery, result) => (gcongestion recovery, result)

def onLossDetectionTimeout (mulF64 : Nat → Rat → Nat) (recovery : Recovery) (handshakeStatus : HandshakeStatus)
    (now : Int) : Option (Recovery × OnLossDetectionTimeoutOutcome × List Nat) :=
  match recovery with
  | legacy recovery =>
    (recovery.onLossDetectionTimeout mulF64 handshakeStatus now).map fun (recovery, result) => (legacy recovery, result)
  | gcongestion recovery =>
    (recovery.onLossDetectionTimeout mulF64 handshakeStatus now).map
      fun (recovery, result) => (gcongestion recovery, result)

def onPktNumSpaceDiscarded (recovery : Recovery) (epoch : Epoch) (handshakeStatus : HandshakeStatus) (now : Int) :
    Recovery :=
  match recovery with
  | legacy recovery => legacy (recovery.onPktNumSpaceDiscarded epoch handshakeStatus now)
  | gcongestion recovery => gcongestion (recovery.onPktNumSpaceDiscarded epoch handshakeStatus now)

def onPathChange (mulF64 : Nat → Rat → Nat) (recovery : Recovery) (epoch : Epoch) (now : Int) :
    Option (Recovery × List Nat) :=
  match recovery with
  | legacy recovery =>
    (recovery.onPathChange mulF64 epoch now).map fun (recovery, loss) => (legacy recovery, loss.lostPkts)
  | gcongestion recovery =>
    (recovery.onPathChange mulF64 epoch now).map
      fun (recovery, loss) => (gcongestion recovery, recovery.lostPkts loss)

def getAckedFrames (recovery : Recovery) (epoch : Epoch) : Recovery :=
  match recovery with
  | legacy recovery => legacy (recovery.getAckedFrames epoch).1
  | gcongestion recovery => gcongestion (recovery.getAckedFrames epoch).1

def getLostFrames (recovery : Recovery) (epoch : Epoch) : Recovery :=
  match recovery with
  | legacy recovery => legacy (recovery.getLostFrames epoch).1
  | gcongestion recovery => gcongestion (recovery.getLostFrames epoch).1

def pingSent (recovery : Recovery) (epoch : Epoch) : Recovery :=
  match recovery with
  | legacy recovery => legacy (recovery.pingSent epoch)
  | gcongestion recovery => gcongestion (recovery.pingSent epoch)

def view : Recovery → View
  | legacy recovery => recovery.view
  | gcongestion recovery => recovery.view

variable {recovery : Recovery} {books : Epoch → Book}

theorem frames_eq (recovery : Recovery) (epoch : Epoch) (fate : Fate) :
    recovery.frames epoch fate = (recovery.view.space epoch).frames fate := by
  cases recovery <;> rfl

theorem bytesInFlight_eq (recovery : Recovery) : recovery.bytesInFlight = recovery.view.bytes := by
  cases recovery <;> rfl

theorem inFlightCount_eq (follows : recovery.view.Follows books 0) (epoch : Epoch) :
    recovery.inFlightCount epoch = (books epoch).count := by
  cases recovery with
  | legacy recovery => exact (follows.tracks epoch).count
  | gcongestion recovery => exact (follows.tracks epoch).count

theorem unresolved_eq (follows : recovery.view.Follows books 0) (epoch : Epoch) :
    recovery.unresolved epoch = (books epoch).unresolved := by
  cases recovery with
  | legacy recovery => exact Legacy.RecoveryEpoch.Tracks.unresolved_eq (follows.tracks epoch)
  | gcongestion recovery => exact Gcongestion.RecoveryEpoch.Tracks.unresolved_eq (follows.tracks epoch)

theorem newWithConfig_follows (gcongestionEnabled : Bool) (initialRtt maxAckDelay : Nat)
    (enableRelaxedLossThreshold : Bool) (now : Int) :
    (newWithConfig gcongestionEnabled initialRtt maxAckDelay enableRelaxedLossThreshold now).view.Follows
      (fun _ => []) 0 := by
  cases gcongestionEnabled with
  | false => exact ⟨fun _ => ⟨.nil, rfl, nofun⟩, ⟨rfl, rfl⟩, trivial⟩
  | true => exact ⟨fun _ => ⟨.nil, rfl, nofun⟩, ⟨rfl, rfl⟩, fun _ => rfl⟩

section

variable (follows : recovery.view.Follows books 0)

include follows

theorem onPacketSent_spec {pkt : Sent} (fresh : pkt.Fresh) {epoch : Epoch}
    (increases : ∀ entry ∈ books epoch, entry.1.pktNum < pkt.pktNum) (handshakeStatus : HandshakeStatus) (now : Int) :
    ∃ next, recovery.onPacketSent pkt epoch handshakeStatus now = some next ∧
      recovery.view.Advances next.view books (Function.update books epoch ((books epoch).send pkt)) 0 := by
  cases recovery with
  | legacy recovery => exact ⟨_, rfl, LegacyRecovery.onPacketSent_spec follows fresh increases handshakeStatus now⟩
  | gcongestion recovery =>
    obtain ⟨next, sent, advances⟩ := GRecovery.onPacketSent_spec follows fresh increases handshakeStatus now
    refine ⟨gcongestion next, ?_, advances⟩
    rw [onPacketSent, sent]
    rfl

section

variable (mulF64 : Nat → Rat → Nat)

include mulF64

theorem onAckReceived_spec {ranges : RangeSet}
    {skipPn : Option Nat} (acceptable : PacketSpace.Acceptable ranges skipPn) (ackDelay : Nat) (epoch : Epoch)
    (handshakeStatus : HandshakeStatus) (now : Int) (wrap : Nat) :
    ∃ next outcome lost, recovery.onAckReceived mulF64 ranges ackDelay epoch handshakeStatus now skipPn wrap =
        some (next, .ok (outcome, lost)) ∧
      recovery.view.Acknowledges next.view books epoch ranges lost next.newlyAcked := by
  cases recovery with
  | legacy recovery =>
    obtain ⟨next, outcome, lost, received, acknowledges⟩ := LegacyRecovery.onAckReceived_spec follows mulF64 acceptable
      ackDelay epoch handshakeStatus now wrap
    refine ⟨legacy next, outcome, lost, ?_, acknowledges⟩
    rw [onAckReceived, received]
    rfl
  | gcongestion recovery =>
    obtain ⟨next, outcome, lost, received, acknowledges⟩ := GRecovery.onAckReceived_spec follows mulF64 acceptable
      ackDelay epoch handshakeStatus now wrap
    refine ⟨gcongestion next, outcome, lost, ?_, acknowledges⟩
    rw [onAckReceived, received]
    rfl

theorem onPathChange_spec (epoch : Epoch)
    (now : Int) : ∃ next lost, recovery.onPathChange mulF64 epoch now = some (next, lost) ∧
      recovery.view.Advances next.view books (Function.update books epoch ((books epoch).lose lost)) 0 := by
  cases recovery with
  | legacy recovery =>
    obtain ⟨next, loss, changed, advances⟩ := LegacyRecovery.onPathChange_spec follows mulF64 epoch now
    refine ⟨legacy next, loss.lostPkts, ?_, advances⟩
    rw [onPathChange, changed]
    rfl
  | gcongestion recovery =>
    obtain ⟨next, loss, changed, advances⟩ := GRecovery.onPathChange_spec follows mulF64 epoch now
    refine ⟨gcongestion next, next.lostPkts loss, ?_, advances⟩
    rw [onPathChange, changed]
    rfl

theorem onLossDetectionTimeout_lost
    (handshakeStatus : HandshakeStatus) (now : Int) (pends : recovery.lossTimeAndSpace.1.isSome = true) :
    ∃ next outcome lost, recovery.onLossDetectionTimeout mulF64 handshakeStatus now = some (next, outcome, lost) ∧
      recovery.view.Advances next.view books
        (Function.update books recovery.lossTimeAndSpace.2 ((books recovery.lossTimeAndSpace.2).lose lost)) 0 := by
  cases recovery with
  | legacy recovery =>
    obtain ⟨next, outcome, lost, expired, advances⟩ :=
      LegacyRecovery.onLossDetectionTimeout_lost follows mulF64 handshakeStatus now pends
    refine ⟨legacy next, outcome, lost, ?_, advances⟩
    rw [onLossDetectionTimeout, expired]
    rfl
  | gcongestion recovery =>
    obtain ⟨next, outcome, lost, expired, advances⟩ :=
      GRecovery.onLossDetectionTimeout_lost follows mulF64 handshakeStatus now pends
    refine ⟨gcongestion next, outcome, lost, ?_, advances⟩
    rw [onLossDetectionTimeout, expired]
    rfl

theorem onLossDetectionTimeout_probes
    (handshakeStatus : HandshakeStatus) (now : Int) (nothing : ¬ recovery.lossTimeAndSpace.1.isSome = true) :
    ∃ next outcome epoch, recovery.onLossDetectionTimeout mulF64 handshakeStatus now = some (next, outcome, []) ∧
      recovery.view.Probes next.view books epoch := by
  cases recovery with
  | legacy recovery =>
    obtain ⟨next, outcome, expired, probes⟩ :=
      LegacyRecovery.onLossDetectionTimeout_probes follows mulF64 handshakeStatus now nothing
    refine ⟨legacy next, outcome, _, ?_, probes⟩
    rw [onLossDetectionTimeout, expired]
    rfl
  | gcongestion recovery =>
    obtain ⟨next, outcome, expired, probes⟩ :=
      GRecovery.onLossDetectionTimeout_probes follows mulF64 handshakeStatus now nothing
    refine ⟨gcongestion next, outcome, _, ?_, probes⟩
    rw [onLossDetectionTimeout, expired]
    rfl

end

theorem onPktNumSpaceDiscarded_spec (epoch : Epoch)
    (handshakeStatus : HandshakeStatus) (now : Int) :
    (recovery.onPktNumSpaceDiscarded epoch handshakeStatus now).view.Follows (Function.update books epoch []) 0 := by
  cases recovery with
  | legacy recovery => exact LegacyRecovery.onPktNumSpaceDiscarded_spec follows epoch handshakeStatus now
  | gcongestion recovery => exact GRecovery.onPktNumSpaceDiscarded_spec follows epoch handshakeStatus now

theorem getAckedFrames_follows (epoch : Epoch) :
    (recovery.getAckedFrames epoch).view.Follows books 0 := by
  cases recovery with
  | legacy recovery => exact LegacyRecovery.follows_setEpoch follows ..
  | gcongestion recovery => exact GRecovery.follows_setEpoch follows ..

theorem getLostFrames_follows (epoch : Epoch) :
    (recovery.getLostFrames epoch).view.Follows books 0 := by
  cases recovery with
  | legacy recovery => exact LegacyRecovery.follows_setEpoch follows ..
  | gcongestion recovery => exact GRecovery.follows_setEpoch follows ..

theorem pingSent_follows (epoch : Epoch) :
    (recovery.pingSent epoch).view.Follows books 0 := by
  cases recovery with
  | legacy recovery => exact LegacyRecovery.follows_setEpoch follows ..
  | gcongestion recovery => exact GRecovery.follows_setEpoch follows ..

end

end Recovery

end Quiche
