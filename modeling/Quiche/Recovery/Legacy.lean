import Quiche.Recovery.Rtt

namespace Quiche

open Data

namespace Legacy

/-- `RecoveryEpoch` of the module `congestion`. -/
structure RecoveryEpoch where
  timeOfLastAckElicitingPacket : Option Int
  largestAckedPacket : Option Nat
  lossTime : Option Int
  sentPackets : List Sent
  lossProbes : Nat
  inFlightCount : Nat
  ackedFrames : List Frame
  lostFrames : List Frame

/-- A packet that was newly acknowledged. What only congestion control reads is left out. -/
structure Acked where
  pktNum : Nat
  timeSent : Int
  size : Nat
  rtt : Nat

structure AckedDetectionResult where
  ackedBytes : Nat
  spuriousLosses : Nat
  spuriousPktThresh : Option Nat
  hasAckEliciting : Bool
  hasInFlightSpuriousLoss : Bool

/-- `lostPkts`, which the source does not keep, lists the packets that were declared lost. -/
structure LossDetectionResult where
  largestLostPkt : Option Sent
  lostPackets : Nat
  lostBytes : Nat
  pmtudLostBytes : Nat
  lostPkts : List Nat

namespace RecoveryEpoch

/-- `Default` -/
def default : RecoveryEpoch where
  timeOfLastAckElicitingPacket := none
  largestAckedPacket := none
  lossTime := none
  sentPackets := []
  lossProbes := 0
  inFlightCount := 0
  ackedFrames := []
  lostFrames := []

/-- What the loop over acknowledged packets changes besides these. -/
structure AckSweep where
  inFlightCount : Nat
  ackedFrames : List Frame
  newlyAcked : List Acked
  result : AckedDetectionResult

/-- One turn of the loop over the packets of a range that ends before `stop`. -/
def ackPacket (now : Int) (largestAcked stop : Nat) (sweep : AckSweep) (unacked : Sent) :
    Option (AckSweep × Sent × Bool) :=
  if unacked.pktNum ≥ stop then some (sweep, unacked, false)
  else if unacked.timeAcked.isSome then some (sweep, unacked, true)
  else if unacked.timeLost.isSome then do
    -- An acked packet was already declared lost.
    let distance ← subChecked largestAcked unacked.pktNum
    let result := { sweep.result with
      spuriousLosses := sweep.result.spuriousLosses + 1
      spuriousPktThresh := sweep.result.spuriousPktThresh.or (some (distance + 1))
      hasInFlightSpuriousLoss := sweep.result.hasInFlightSpuriousLoss || unacked.inFlight }
    return ({ sweep with result }, { unacked with timeAcked := some now }, true)
  else do
    let inFlightCount ← if unacked.inFlight then subChecked sweep.inFlightCount 1 else some sweep.inFlightCount
    let result := { sweep.result with
      ackedBytes := if unacked.inFlight then sweep.result.ackedBytes + unacked.size else sweep.result.ackedBytes
      hasAckEliciting := sweep.result.hasAckEliciting || unacked.ackEliciting }
    return (
      { inFlightCount
        ackedFrames := sweep.ackedFrames ++ unacked.frames
        newlyAcked := sweep.newlyAcked ++
          [⟨unacked.pktNum, unacked.timeSent, unacked.size, (now - unacked.timeSent).toNat⟩]
        result },
      { unacked with frames := [], timeAcked := some now }, true)

/-- Whether a resolved packet leaves the front of the queue. -/
def drained (lossThresh : Int) (pkt : Sent) : Bool :=
  !pkt.timeLost.any (lossThresh < ·) && (pkt.timeAcked.isSome || pkt.timeLost.isSome)

def drainAckedAndLostPackets (epoch : RecoveryEpoch) (lossThresh : Int) : RecoveryEpoch :=
  { epoch with sentPackets := epoch.sentPackets.dropWhile (drained lossThresh) }

def detectAndRemoveAckedPackets (epoch : RecoveryEpoch) (now : Int) (peerSentAckRanges : RangeSet) (rtt : Nat)
    (skipPn : Option Nat) (wrap : Nat) : Option (RecoveryEpoch × List Acked × Except Error AckedDetectionResult) := do
  let largestAckReceived ← peerSentAckRanges.last
  let largestAcked := max (epoch.largestAckedPacket.getD 0) largestAckReceived
  let ((sweep, sentPackets), outcome) ← ackRanges Sent.pktNum (ackPacket now largestAcked) skipPn wrap
    peerSentAckRanges.iter ⟨epoch.inFlightCount, epoch.ackedFrames, [], ⟨0, 0, none, false, false⟩⟩
    epoch.sentPackets
  let epoch := { epoch with
    sentPackets, inFlightCount := sweep.inFlightCount, ackedFrames := sweep.ackedFrames }
  match outcome with
  | .error error => return (epoch, sweep.newlyAcked, .error error)
  | .ok () => return (epoch.drainAckedAndLostPackets (now - rtt), sweep.newlyAcked, .ok sweep.result)

structure LossSweep where
  inFlightCount : Nat
  lostFrames : List Frame
  lossTime : Option Int
  result : LossDetectionResult

def losePacket (lossDelay pktThresh : Nat) (now lostSendTime : Int) (largestAcked : Nat) (sweep : LossSweep)
    (unacked : Sent) : Option (LossSweep × Sent × Bool) :=
  if ¬ unacked.pktNum ≤ largestAcked then some (sweep, unacked, false)
  else if unacked.timeAcked.isSome || unacked.timeLost.isSome then some (sweep, unacked, true)
  else if unacked.timeSent ≤ lostSendTime ∨ largestAcked ≥ unacked.pktNum + pktThresh then
    let lost := { unacked with frames := [], timeLost := some now }
    let sweep := { sweep with
      lostFrames := sweep.lostFrames ++ unacked.frames
      result := { sweep.result with lostPkts := sweep.result.lostPkts ++ [unacked.pktNum] } }
    if unacked.isPmtudProbe then do
      let inFlightCount ← subChecked sweep.inFlightCount 1
      let result := { sweep.result with pmtudLostBytes := sweep.result.pmtudLostBytes + unacked.size }
      -- Do not track PMTUD probes losses.
      return ({ sweep with inFlightCount, result }, lost, true)
    else if unacked.inFlight then do
      let inFlightCount ← subChecked sweep.inFlightCount 1
      let result := { sweep.result with
        lostBytes := sweep.result.lostBytes + unacked.size
        largestLostPkt := some lost
        lostPackets := sweep.result.lostPackets + 1 }
      return ({ sweep with inFlightCount, result }, lost, true)
    else
      let result := { sweep.result with lostPackets := sweep.result.lostPackets + 1 }
      some ({ sweep with result }, lost, true)
  else
    let time := unacked.timeSent + lossDelay
    some ({ sweep with lossTime := some (sweep.lossTime.elim time (min · time)) }, unacked, false)

def detectLostPackets (epoch : RecoveryEpoch) (lossDelay pktThresh : Nat) (now : Int) :
    Option (RecoveryEpoch × LossDetectionResult) := do
  let lossDelay := max lossDelay granularity
  let largestAcked := epoch.largestAckedPacket.getD 0
  let (sweep, sentPackets) ← sweep (losePacket lossDelay pktThresh now (now - lossDelay) largestAcked)
    ⟨epoch.inFlightCount, epoch.lostFrames, none, ⟨none, 0, 0, 0, []⟩⟩ epoch.sentPackets
  return (
    { epoch with
      sentPackets, inFlightCount := sweep.inFlightCount, lostFrames := sweep.lostFrames, lossTime := sweep.lossTime },
    sweep.result)

end RecoveryEpoch

end Legacy

open Legacy

/-- Loss recovery with one of the congestion control algorithms of the module `congestion`;
these read the packets and change none. -/
structure LegacyRecovery where
  epochs : Epoch → RecoveryEpoch
  lossTimer : Option Int
  ptoCount : Nat
  rttStats : RttStats
  lostSpuriousCount : Nat
  pktThresh : Nat
  timeThresh : Rat
  bytesInFlight : BytesInFlight
  bytesSent : Nat
  outstandingNonAckEliciting : Nat
  newlyAcked : List Acked

namespace LegacyRecovery

/-- `new_with_config`; `now` is the time of the call. -/
def new (initialRtt maxAckDelay : Nat) (now : Int) : LegacyRecovery where
  epochs _ := .default
  lossTimer := none
  ptoCount := 0
  rttStats := .new initialRtt maxAckDelay now
  lostSpuriousCount := 0
  pktThresh := initialPacketThreshold
  timeThresh := initialTimeThreshold
  bytesInFlight := .default
  bytesSent := 0
  outstandingNonAckEliciting := 0
  newlyAcked := []

def setEpoch (recovery : LegacyRecovery) (epoch : Epoch) (state : RecoveryEpoch) : LegacyRecovery :=
  { recovery with epochs := Function.update recovery.epochs epoch state }

def lossTimeAndSpace (recovery : LegacyRecovery) : Option Int × Epoch :=
  Quiche.lossTimeAndSpace fun epoch => (recovery.epochs epoch).lossTime

/-- The power of two wraps around in a release build. -/
def ptoTimeAndSpace (recovery : LegacyRecovery) (handshakeStatus : HandshakeStatus) (now : Int) : Option Int × Epoch :=
  let backoff := 2 ^ recovery.ptoCount % 2 ^ 32
  let duration := recovery.rttStats.pto * backoff
  -- Arm PTO from now when there are no inflight packets.
  if recovery.bytesInFlight.isZero then
    (some (now + duration), if handshakeStatus.hasHandshakeKeys then .handshake else .initial)
  else
    Quiche.ptoTimeAndSpace (fun epoch => (recovery.epochs epoch).inFlightCount)
      (fun epoch => (recovery.epochs epoch).timeOfLastAckElicitingPacket) handshakeStatus.completed duration
      (recovery.rttStats.maxAckDelay * backoff) [.initial, .handshake, .application] none .initial

def setLossDetectionTimer (recovery : LegacyRecovery) (handshakeStatus : HandshakeStatus) (now : Int) :
    LegacyRecovery :=
  match recovery.lossTimeAndSpace.1 with
  | some time => { recovery with lossTimer := some time }
  | none =>
    if recovery.bytesInFlight.isZero && handshakeStatus.peerVerifiedAddress then { recovery with lossTimer := none }
    else
      match (recovery.ptoTimeAndSpace handshakeStatus now).1 with
      | some timeout => { recovery with lossTimer := some timeout }
      | none => recovery

/-- `detect_lost_packets`, which returns `lost_packets` and `lost_bytes`. -/
def detectLostPackets (mulF64 : Nat → Rat → Nat) (recovery : LegacyRecovery) (epoch : Epoch) (now : Int) :
    Option (LegacyRecovery × LossDetectionResult) := do
  let lossDelay := mulF64 (max recovery.rttStats.latestRtt recovery.rttStats.smoothedRtt) recovery.timeThresh
  let (state, loss) ← (recovery.epochs epoch).detectLostPackets lossDelay recovery.pktThresh now
  let bytesInFlight :=
    if loss.largestLostPkt.isSome then recovery.bytesInFlight.saturatingSubtract loss.lostBytes now
    else recovery.bytesInFlight
  let bytesInFlight := bytesInFlight.saturatingSubtract loss.pmtudLostBytes now
  let state := state.drainAckedAndLostPackets (now - recovery.rttStats.smoothedRtt)
  return ({ recovery with bytesInFlight }.setEpoch epoch state, loss)

def onPacketSent (recovery : LegacyRecovery) (pkt : Sent) (epoch : Epoch) (handshakeStatus : HandshakeStatus)
    (now : Int) : LegacyRecovery :=
  let state := recovery.epochs epoch
  let state :=
    if pkt.inFlight && pkt.ackEliciting then { state with timeOfLastAckElicitingPacket := some now } else state
  let recovery := { recovery.setEpoch epoch state with
    outstandingNonAckEliciting := if pkt.ackEliciting then 0 else recovery.outstandingNonAckEliciting + 1 }
  let recovery :=
    if pkt.inFlight then
      let state := { state with inFlightCount := state.inFlightCount + 1 }
      { recovery.setEpoch epoch state with
        bytesInFlight := recovery.bytesInFlight.add pkt.size now }.setLossDetectionTimer handshakeStatus now
    else recovery
  let state := recovery.epochs epoch
  { recovery with bytesSent := recovery.bytesSent + pkt.size }.setEpoch epoch
    { state with sentPackets := state.sentPackets ++ [pkt] }

/-- The spurious losses of `on_ack_received`. -/
def onSpuriousLosses (recovery : LegacyRecovery) (result : AckedDetectionResult) : LegacyRecovery :=
  let recovery := { recovery with lostSpuriousCount := recovery.lostSpuriousCount + result.spuriousLosses }
  match result.spuriousPktThresh with
  | some thresh => { recovery with
      pktThresh := max recovery.pktThresh (min thresh maxPacketThreshold)
      timeThresh := packetReorderTimeThreshold }
  | none => recovery

/-- The largest acknowledged packet and the RTT of `on_ack_received`. -/
def onLargestNewlyAcked (recovery : LegacyRecovery) (largestNewlyAcked : Acked) (hasAckEliciting : Bool)
    (ackDelay : Nat) (epoch : Epoch) (handshakeStatus : HandshakeStatus) (now : Int) : LegacyRecovery :=
  let state := recovery.epochs epoch
  let largestAckedPktNum := max (state.largestAckedPacket.getD 0) largestNewlyAcked.pktNum
  let recovery := recovery.setEpoch epoch { state with largestAckedPacket := some largestAckedPktNum }
  if largestNewlyAcked.pktNum = largestAckedPktNum ∧ hasAckEliciting then
    { recovery with
      rttStats := recovery.rttStats.updateRtt (now - largestNewlyAcked.timeSent).toNat (ackDelay * 1000)
        now handshakeStatus.completed }
  else recovery

def onAckReceived (mulF64 : Nat → Rat → Nat) (recovery : LegacyRecovery) (peerSentAckRanges : RangeSet)
    (ackDelay : Nat) (epoch : Epoch) (handshakeStatus : HandshakeStatus) (now : Int) (skipPn : Option Nat)
    (wrap : Nat) : Option (LegacyRecovery × Except Error (OnAckReceivedOutcome × List Nat)) := do
  let (state, newlyAcked, outcome) ← (recovery.epochs epoch).detectAndRemoveAckedPackets now peerSentAckRanges
    recovery.rttStats.smoothedRtt skipPn wrap
  let recovery := { recovery.setEpoch epoch state with newlyAcked }
  match outcome with
  | .error error => return (recovery, .error error)
  | .ok result =>
    let recovery := recovery.onSpuriousLosses result
    match newlyAcked.getLast? with
    | none => return (recovery, .ok (⟨0, 0, 0, 0⟩, []))
    | some largestNewlyAcked =>
      let recovery := recovery.onLargestNewlyAcked largestNewlyAcked result.hasAckEliciting ackDelay epoch
        handshakeStatus now
      let (recovery, loss) ← recovery.detectLostPackets mulF64 epoch now
      let recovery := { recovery with
        bytesInFlight := recovery.bytesInFlight.saturatingSubtract result.ackedBytes now
        ptoCount := 0 }
      let recovery := recovery.setLossDetectionTimer handshakeStatus now
      let state := (recovery.epochs epoch).drainAckedAndLostPackets (now - recovery.rttStats.smoothedRtt)
      return (recovery.setEpoch epoch state,
        .ok (⟨loss.lostPackets, loss.lostBytes, result.ackedBytes, result.spuriousLosses⟩, loss.lostPkts))

def probeFrames (state : RecoveryEpoch) (lossProbes : Nat) : List Frame :=
  ((state.sentPackets.filter fun pkt => pkt.hasData && pkt.timeAcked.isNone && pkt.timeLost.isNone).take
    lossProbes).flatMap (·.frames)

/-- The packet number space that `on_loss_detection_timeout` probes. -/
def probeSpace (recovery : LegacyRecovery) (handshakeStatus : HandshakeStatus) (now : Int) : Epoch :=
  if recovery.bytesInFlight.bytesInFlight > 0 then (recovery.ptoTimeAndSpace handshakeStatus now).2
  else if handshakeStatus.hasHandshakeKeys then .handshake
  else .initial

/-- The probes of `on_loss_detection_timeout`. -/
def onProbeTimeout (recovery : LegacyRecovery) (epoch : Epoch) : LegacyRecovery :=
  let recovery := { recovery with ptoCount := recovery.ptoCount + 1 }
  let state := recovery.epochs epoch
  let lossProbes := min recovery.ptoCount maxPtoProbesCount
  recovery.setEpoch epoch { state with lossProbes, lostFrames := state.lostFrames ++ probeFrames state lossProbes }

def onLossDetectionTimeout (mulF64 : Nat → Rat → Nat) (recovery : LegacyRecovery)
    (handshakeStatus : HandshakeStatus) (now : Int) :
    Option (LegacyRecovery × OnLossDetectionTimeoutOutcome × List Nat) :=
  let (earliestLossTime, epoch) := recovery.lossTimeAndSpace
  if earliestLossTime.isSome then do
    -- Time threshold loss detection.
    let (recovery, loss) ← recovery.detectLostPackets mulF64 epoch now
    return (recovery.setLossDetectionTimer handshakeStatus now, ⟨loss.lostPackets, loss.lostBytes⟩, loss.lostPkts)
  else
    let recovery := recovery.onProbeTimeout (recovery.probeSpace handshakeStatus now)
    some (recovery.setLossDetectionTimer handshakeStatus now, ⟨0, 0⟩, [])

def onPktNumSpaceDiscarded (recovery : LegacyRecovery) (epoch : Epoch) (handshakeStatus : HandshakeStatus)
    (now : Int) : LegacyRecovery :=
  let state := recovery.epochs epoch
  let unackedBytes := (state.sentPackets.filter fun pkt =>
    pkt.inFlight && pkt.timeAcked.isNone && pkt.timeLost.isNone).foldl (fun acc pkt => acc + pkt.size) 0
  let recovery := { recovery with
    bytesInFlight := recovery.bytesInFlight.saturatingSubtract unackedBytes now }
  let recovery := recovery.setEpoch epoch { state with
    sentPackets := []
    lostFrames := []
    ackedFrames := []
    timeOfLastAckElicitingPacket := none
    lossTime := none
    lossProbes := 0
    inFlightCount := 0 }
  recovery.setLossDetectionTimer handshakeStatus now

def onPathChange (mulF64 : Nat → Rat → Nat) (recovery : LegacyRecovery) (epoch : Epoch) (now : Int) :
    Option (LegacyRecovery × LossDetectionResult) := recovery.detectLostPackets mulF64 epoch now

def getAckedFrames (recovery : LegacyRecovery) (epoch : Epoch) : LegacyRecovery × List Frame :=
  let state := recovery.epochs epoch
  (recovery.setEpoch epoch { state with ackedFrames := [] }, state.ackedFrames)

def getLostFrames (recovery : LegacyRecovery) (epoch : Epoch) : LegacyRecovery × List Frame :=
  let state := recovery.epochs epoch
  (recovery.setEpoch epoch { state with lostFrames := [] }, state.lostFrames)

def pingSent (recovery : LegacyRecovery) (epoch : Epoch) : LegacyRecovery :=
  let state := recovery.epochs epoch
  recovery.setEpoch epoch { state with lossProbes := state.lossProbes - 1 }

end LegacyRecovery

end Quiche
