import Quiche.Recovery.Rtt

namespace Quiche

open Data

namespace Gcongestion

inductive SentStatus where
  | sent (timeSent : Int) (ackEliciting inFlight hasData isPmtudProbe : Bool) (sentBytes : Nat)
      (frames : List Frame)
  | acked
  | lost

structure SentPacket where
  pktNum : Nat
  status : SentStatus

namespace SentStatus

def ack (status : SentStatus) : SentStatus × SentStatus := (.acked, status)

def lose (status : SentStatus) : SentStatus × SentStatus :=
  match status with
  | .acked => (.acked, .acked)
  | status => (.lost, status)

end SentStatus

/-- `RecoveryEpoch` of the module `gcongestion`. -/
structure RecoveryEpoch where
  timeOfLastAckElicitingPacket : Option Int
  largestAckedPacket : Option Nat
  lossTime : Option Int
  sentPackets : List SentPacket
  lossProbes : Nat
  pktsInFlight : Nat
  ackedFrames : List Frame
  lostFrames : List Frame

structure Acked where
  pktNum : Nat
  timeSent : Int

structure Lost where
  packetNumber : Nat
  bytesLost : Nat

structure AckedDetectionResult where
  ackedBytes : Nat
  spuriousLosses : Nat
  spuriousPktThresh : Option Nat
  hasAckEliciting : Bool

structure LossDetectionResult where
  lostBytes : Nat
  lostPackets : Nat
  pmtudLostBytes : Nat
  pmtudLostPackets : List Nat

namespace RecoveryEpoch

/-- `Default` -/
def default : RecoveryEpoch where
  timeOfLastAckElicitingPacket := none
  largestAckedPacket := none
  lossTime := none
  sentPackets := []
  lossProbes := 0
  pktsInFlight := 0
  ackedFrames := []
  lostFrames := []

def unackedBytes (pkt : SentPacket) : Nat :=
  match pkt.status with
  | .sent _ _ inFlight _ _ sentBytes _ => if inFlight then sentBytes else 0
  | _ => 0

/-- `discard`, which also tells congestion control. -/
def discard (epoch : RecoveryEpoch) : RecoveryEpoch × Nat := ({ epoch with
      sentPackets := []
      timeOfLastAckElicitingPacket := none
      lossTime := none
      lossProbes := 0
      pktsInFlight := 0 },
    (epoch.sentPackets.map unackedBytes).sum)

/-- What the loop over acknowledged packets changes besides these. -/
structure AckSweep where
  pktsInFlight : Nat
  ackedFrames : List Frame
  newlyAcked : List Acked
  result : AckedDetectionResult

/-- One turn of the loop over the packets of a range that ends before `stop`. -/
def ackPacket (largestAcked stop : Nat) (sweep : AckSweep) (pkt : SentPacket) : Option (AckSweep × SentPacket × Bool) :=
  if pkt.pktNum < stop then
    let (status, before) := pkt.status.ack
    let acked := { pkt with status }
    match before with
    | .sent timeSent ackEliciting inFlight _ _ sentBytes frames => do
      let pktsInFlight ← if inFlight then subChecked sweep.pktsInFlight 1 else some sweep.pktsInFlight
      let result := { sweep.result with
        ackedBytes := if inFlight then sweep.result.ackedBytes + sentBytes else sweep.result.ackedBytes
        hasAckEliciting := sweep.result.hasAckEliciting || ackEliciting }
      return (
        { pktsInFlight
          ackedFrames := sweep.ackedFrames ++ frames
          newlyAcked := sweep.newlyAcked ++ [⟨pkt.pktNum, timeSent⟩]
          result },
        acked, true)
    | .acked => some (sweep, acked, true)
    | .lost => do
      -- An acked packet was already declared lost.
      let distance ← subChecked largestAcked pkt.pktNum
      let result := { sweep.result with
        spuriousLosses := sweep.result.spuriousLosses + 1
        spuriousPktThresh := sweep.result.spuriousPktThresh.or (some (distance + 1)) }
      return ({ sweep with result }, acked, true)
  else some (sweep, pkt, false)

def drained (pkt : SentPacket) : Bool :=
  match pkt.status with
  | .acked | .lost => true
  | .sent .. => false

def drainAckedAndLostPackets (epoch : RecoveryEpoch) : RecoveryEpoch :=
  { epoch with sentPackets := epoch.sentPackets.dropWhile drained }

def detectAndRemoveAckedPackets (epoch : RecoveryEpoch) (peerSentAckRanges : RangeSet) (skipPn : Option Nat)
    (wrap : Nat) : Option (RecoveryEpoch × List Acked × Except Error AckedDetectionResult) := do
  let largestAckReceived ← peerSentAckRanges.last
  let largestAcked := max (epoch.largestAckedPacket.getD 0) largestAckReceived
  let ((sweep, sentPackets), outcome) ← ackRanges SentPacket.pktNum (ackPacket largestAcked) skipPn wrap
    peerSentAckRanges.iter ⟨epoch.pktsInFlight, epoch.ackedFrames, [], ⟨0, 0, none, false⟩⟩ epoch.sentPackets
  let epoch := { epoch with
    sentPackets, pktsInFlight := sweep.pktsInFlight, ackedFrames := sweep.ackedFrames }
  match outcome with
  | .error error => return (epoch, sweep.newlyAcked, .error error)
  | .ok () => return (epoch.drainAckedAndLostPackets, sweep.newlyAcked, .ok sweep.result)

structure LossSweep where
  pktsInFlight : Nat
  lostFrames : List Frame
  lossTime : Option Int
  newlyLost : List Lost
  lostBytes : Nat
  pmtudLostBytes : Nat
  pmtudLostPackets : List Nat

def losePacket (lossDelay : Nat) (pktThresh : Option Nat) (lostSendTime : Int) (largestAcked : Nat)
    (sweep : LossSweep) (pkt : SentPacket) : Option (LossSweep × SentPacket × Bool) :=
  if pkt.pktNum > largestAcked then some (sweep, pkt, false)
  else
    match pkt.status with
    | .sent timeSent _ _ _ _ _ _ =>
      let lossByTime := decide (timeSent ≤ lostSendTime)
      let lossByPkt := pktThresh.any fun thresh => largestAcked ≥ pkt.pktNum + thresh
      if lossByTime || lossByPkt then
        let (status, before) := pkt.status.lose
        let lost := { pkt with status }
        match before with
        | .sent _ _ inFlight _ isPmtudProbe sentBytes frames =>
          let sweep := { sweep with lostFrames := sweep.lostFrames ++ frames }
          let newlyLost := sweep.newlyLost ++ [⟨pkt.pktNum, sentBytes⟩]
          if inFlight then do
            let pktsInFlight ← subChecked sweep.pktsInFlight 1
            if isPmtudProbe then
              -- Do not track PMTUD probes losses.
              return (
                { sweep with
                  pktsInFlight
                  pmtudLostBytes := sweep.pmtudLostBytes + sentBytes
                  pmtudLostPackets := sweep.pmtudLostPackets ++ [pkt.pktNum] },
                lost, true)
            else return ({ sweep with pktsInFlight, lostBytes := sweep.lostBytes + sentBytes, newlyLost }, lost, true)
          else some ({ sweep with newlyLost }, lost, true)
        | _ => some (sweep, lost, true)
      else some ({ sweep with lossTime := some (timeSent + lossDelay) }, pkt, false)
    | _ => some (sweep, pkt, true)

def detectAndRemoveLostPackets (epoch : RecoveryEpoch) (lossDelay : Nat) (pktThresh : Option Nat) (now : Int) :
    Option (RecoveryEpoch × List Lost × LossDetectionResult) := do
  let largestAcked := epoch.largestAckedPacket.getD 0
  let (sweep, sentPackets) ← sweep (losePacket lossDelay pktThresh (now - lossDelay) largestAcked)
    ⟨epoch.pktsInFlight, epoch.lostFrames, none, [], 0, 0, []⟩ epoch.sentPackets
  return (
    { epoch with
      sentPackets, pktsInFlight := sweep.pktsInFlight, lostFrames := sweep.lostFrames, lossTime := sweep.lossTime },
    sweep.newlyLost, ⟨sweep.lostBytes, sweep.newlyLost.length, sweep.pmtudLostBytes, sweep.pmtudLostPackets⟩)

end RecoveryEpoch

structure LossThreshold where
  pktThresh : Option Nat
  timeThresh : Rat
  timeThreshOverhead : Option Rat

namespace LossThreshold

def new (enableRelaxedLossThreshold : Bool) : LossThreshold where
  pktThresh := some initialPacketThreshold
  timeThresh := initialTimeThreshold
  timeThreshOverhead := if enableRelaxedLossThreshold then some initialTimeThresholdOverhead else none

/-- `none` is a panic: the packet threshold is missing. -/
def onSpuriousLoss (thresh : LossThreshold) (newPktThresh : Nat) : Option LossThreshold :=
  match thresh.timeThreshOverhead with
  | some overhead =>
    -- Disable the packet threshold on the first spurious loss.
    if thresh.pktThresh.isSome then some { thresh with pktThresh := none }
    else
      let overhead := min (overhead * timeThresholdOverheadMultiplier) 1
      some { thresh with timeThreshOverhead := some overhead, timeThresh := 1 + overhead }
  | none => do
    let pktThresh := max (← thresh.pktThresh) (min newPktThresh maxPacketThreshold)
    return { thresh with pktThresh := some pktThresh, timeThresh := packetReorderTimeThreshold }

end LossThreshold

end Gcongestion

open Gcongestion

/-- Loss recovery with one of the congestion control algorithms of the module `gcongestion`,
which are told of packets and see none. -/
structure GRecovery where
  epochs : Epoch → RecoveryEpoch
  lossTimer : Option Int
  ptoCount : Nat
  rttStats : RttStats
  lostCount : Nat
  lostSpuriousCount : Nat
  lossThresh : LossThreshold
  bytesInFlight : BytesInFlight
  bytesSent : Nat
  outstandingNonAckEliciting : Nat
  newlyAcked : List Acked
  lostReuse : List Lost

namespace GRecovery

/-- `new`; `now` is the time of the call. -/
def new (initialRtt maxAckDelay : Nat) (enableRelaxedLossThreshold : Bool) (now : Int) : GRecovery where
  epochs _ := .default
  lossTimer := none
  ptoCount := 0
  rttStats := .new initialRtt maxAckDelay now
  lostCount := 0
  lostSpuriousCount := 0
  lossThresh := .new enableRelaxedLossThreshold
  bytesInFlight := .default
  bytesSent := 0
  outstandingNonAckEliciting := 0
  newlyAcked := []
  lostReuse := []

def setEpoch (recovery : GRecovery) (epoch : Epoch) (state : RecoveryEpoch) : GRecovery :=
  { recovery with epochs := Function.update recovery.epochs epoch state }

/-- `detect_and_remove_lost_packets`, which returns `lost_bytes` and `lost_packets`. -/
def detectAndRemoveLostPackets (mulF64 : Nat → Rat → Nat) (recovery : GRecovery) (epoch : Epoch) (now : Int) :
    Option (GRecovery × LossDetectionResult) := do
  let lossDelay := recovery.rttStats.lossDelay mulF64 recovery.lossThresh.timeThresh
  let (state, lostReuse, loss) ← (recovery.epochs epoch).detectAndRemoveLostPackets lossDelay
    recovery.lossThresh.pktThresh now
  return (
    { recovery with
      lostReuse
      bytesInFlight := recovery.bytesInFlight.saturatingSubtract (loss.lostBytes + loss.pmtudLostBytes) now }.setEpoch
        epoch state,
    loss)

/-- The packets that the last call of `detect_and_remove_lost_packets` declared lost. -/
def lostPkts (recovery : GRecovery) (loss : LossDetectionResult) : List Nat :=
  recovery.lostReuse.map (·.packetNumber) ++ loss.pmtudLostPackets

def lossTimeAndSpace (recovery : GRecovery) : Option Int × Epoch :=
  Quiche.lossTimeAndSpace fun epoch => (recovery.epochs epoch).lossTime

/-- The shift takes its distance modulo 32, and the power of two wraps around, in a release
build. -/
def ptoTimeAndSpace (recovery : GRecovery) (handshakeStatus : HandshakeStatus) (now : Int) : Option Int × Epoch :=
  let duration := recovery.rttStats.pto * 2 ^ (recovery.ptoCount % 32)
  -- Arm PTO from now when there are no inflight packets.
  if recovery.bytesInFlight.isZero then
    (some (now + duration), if handshakeStatus.hasHandshakeKeys then .handshake else .initial)
  else
    Quiche.ptoTimeAndSpace (fun epoch => (recovery.epochs epoch).pktsInFlight)
      (fun epoch => (recovery.epochs epoch).timeOfLastAckElicitingPacket) handshakeStatus.completed duration
      (recovery.rttStats.maxAckDelay * (2 ^ recovery.ptoCount % 2 ^ 32)) [.initial, .handshake, .application]
      none .initial

def setLossDetectionTimer (recovery : GRecovery) (handshakeStatus : HandshakeStatus) (now : Int) : GRecovery :=
  match recovery.lossTimeAndSpace.1 with
  | some time => { recovery with lossTimer := some time }
  | none =>
    if recovery.bytesInFlight.isZero && handshakeStatus.peerVerifiedAddress then { recovery with lossTimer := none }
    else
      match (recovery.ptoTimeAndSpace handshakeStatus now).1 with
      | some timeout => { recovery with lossTimer := some timeout }
      | none => recovery

/-- `none` is the assertion that packet numbers increase. The packet is released at
`pkt.timeSent`. -/
def onPacketSent (recovery : GRecovery) (pkt : Sent) (epoch : Epoch) (handshakeStatus : HandshakeStatus)
    (now : Int) : Option GRecovery :=
  let state := recovery.epochs epoch
  if state.sentPackets.getLast?.any fun last => pkt.pktNum ≤ last.pktNum then none
  else
    let status := .sent pkt.timeSent pkt.ackEliciting pkt.inFlight pkt.hasData pkt.isPmtudProbe pkt.size pkt.frames
    let state := { state with sentPackets := state.sentPackets ++ [⟨pkt.pktNum, status⟩] }
    let state :=
      if pkt.ackEliciting then { state with timeOfLastAckElicitingPacket := some pkt.timeSent } else state
    let recovery := { recovery.setEpoch epoch state with
      outstandingNonAckEliciting := if pkt.ackEliciting then 0 else recovery.outstandingNonAckEliciting + 1 }
    let recovery :=
      if pkt.inFlight then
        let state := { state with pktsInFlight := state.pktsInFlight + 1 }
        { recovery.setEpoch epoch state with
          bytesInFlight := recovery.bytesInFlight.add pkt.size now }.setLossDetectionTimer handshakeStatus pkt.timeSent
      else recovery
    some { recovery with bytesSent := recovery.bytesSent + pkt.size }

/-- The spurious losses of `on_ack_received`. -/
def onSpuriousLosses (recovery : GRecovery) (result : AckedDetectionResult) : Option GRecovery := do
  let recovery := { recovery with lostSpuriousCount := recovery.lostSpuriousCount + result.spuriousLosses }
  let lossThresh ← match result.spuriousPktThresh with
    | some thresh => recovery.lossThresh.onSpuriousLoss thresh
    | none => some recovery.lossThresh
  return { recovery with lossThresh }

/-- The bytes in flight, the largest acknowledged packet and the RTT of `on_ack_received`. -/
def onLargestNewlyAcked (recovery : GRecovery) (largestNewlyAcked : Acked) (result : AckedDetectionResult)
    (ackDelay : Nat) (epoch : Epoch) (handshakeStatus : HandshakeStatus) (now : Int) : GRecovery :=
  let recovery := { recovery with
    bytesInFlight := recovery.bytesInFlight.saturatingSubtract result.ackedBytes now }
  let state := recovery.epochs epoch
  let largestAckedPktNum := max (state.largestAckedPacket.getD 0) largestNewlyAcked.pktNum
  let recovery := recovery.setEpoch epoch { state with largestAckedPacket := some largestAckedPktNum }
  if largestNewlyAcked.pktNum = largestAckedPktNum ∧ result.hasAckEliciting then
    { recovery with
      rttStats := recovery.rttStats.updateRtt (now - largestNewlyAcked.timeSent).toNat (ackDelay * 1000)
        now handshakeStatus.completed }
  else recovery

def onAckReceived (mulF64 : Nat → Rat → Nat) (recovery : GRecovery) (peerSentAckRanges : RangeSet)
    (ackDelay : Nat) (epoch : Epoch) (handshakeStatus : HandshakeStatus) (now : Int) (skipPn : Option Nat)
    (wrap : Nat) : Option (GRecovery × Except Error (OnAckReceivedOutcome × List Nat)) := do
  let (state, newlyAcked, outcome) ← (recovery.epochs epoch).detectAndRemoveAckedPackets peerSentAckRanges skipPn wrap
  let recovery := { recovery.setEpoch epoch state with newlyAcked }
  match outcome with
  | .error error => return (recovery, .error error)
  | .ok result =>
    let recovery ← recovery.onSpuriousLosses result
    match newlyAcked.getLast? with
    | none => return (recovery, .ok (⟨0, 0, result.ackedBytes, result.spuriousLosses⟩, []))
    | some largestNewlyAcked =>
      let recovery := recovery.onLargestNewlyAcked largestNewlyAcked result ackDelay epoch handshakeStatus now
      let (recovery, loss) ← recovery.detectAndRemoveLostPackets mulF64 epoch now
      let recovery := { recovery with ptoCount := 0, lostCount := recovery.lostCount + loss.lostPackets }
      let recovery := recovery.setLossDetectionTimer handshakeStatus now
      return (recovery,
        .ok (⟨loss.lostPackets, loss.lostBytes, result.ackedBytes, result.spuriousLosses⟩, recovery.lostPkts loss))

def dataFrames (pkt : SentPacket) : Option (List Frame) :=
  match pkt.status with
  | .sent _ _ _ true _ _ frames => some frames
  | _ => none

def probeFrames (state : RecoveryEpoch) (lossProbes : Nat) : List Frame :=
  ((state.sentPackets.filterMap dataFrames).take lossProbes).flatten.filter fun frame =>
    match frame with
    | .datagramHeader _ => false
    | _ => true

/-- The packet number space that `on_loss_detection_timeout` probes. -/
def probeSpace (recovery : GRecovery) (handshakeStatus : HandshakeStatus) (now : Int) : Epoch :=
  if recovery.bytesInFlight.bytesInFlight > 0 then (recovery.ptoTimeAndSpace handshakeStatus now).2
  else if handshakeStatus.hasHandshakeKeys then .handshake
  else .initial

/-- The probes of `on_loss_detection_timeout`. -/
def onProbeTimeout (recovery : GRecovery) (epoch : Epoch) : GRecovery :=
  let recovery := { recovery with ptoCount := recovery.ptoCount + 1 }
  let state := recovery.epochs epoch
  let lossProbes := min maxPtoProbesCount recovery.ptoCount
  recovery.setEpoch epoch { state with lossProbes, lostFrames := state.lostFrames ++ probeFrames state lossProbes }

def onLossDetectionTimeout (mulF64 : Nat → Rat → Nat) (recovery : GRecovery) (handshakeStatus : HandshakeStatus)
    (now : Int) : Option (GRecovery × OnLossDetectionTimeoutOutcome × List Nat) :=
  let (earliestLossTime, epoch) := recovery.lossTimeAndSpace
  if earliestLossTime.isSome then do
    let (recovery, loss) ← recovery.detectAndRemoveLostPackets mulF64 epoch now
    let recovery := { recovery with lostCount := recovery.lostCount + loss.lostPackets }
    let recovery := recovery.setLossDetectionTimer handshakeStatus now
    return (recovery, ⟨loss.lostPackets, loss.lostBytes⟩, recovery.lostPkts loss)
  else
    let recovery := recovery.onProbeTimeout (recovery.probeSpace handshakeStatus now)
    some (recovery.setLossDetectionTimer handshakeStatus now, ⟨0, 0⟩, [])

def onPktNumSpaceDiscarded (recovery : GRecovery) (epoch : Epoch) (handshakeStatus : HandshakeStatus) (now : Int) :
    GRecovery :=
  let (state, unackedBytes) := (recovery.epochs epoch).discard
  { recovery with bytesInFlight := recovery.bytesInFlight.saturatingSubtract unackedBytes now }.setEpoch epoch state
    |>.setLossDetectionTimer handshakeStatus now

def onPathChange (mulF64 : Nat → Rat → Nat) (recovery : GRecovery) (epoch : Epoch) (now : Int) :
    Option (GRecovery × LossDetectionResult) := recovery.detectAndRemoveLostPackets mulF64 epoch now

def getAckedFrames (recovery : GRecovery) (epoch : Epoch) : GRecovery × List Frame :=
  let state := recovery.epochs epoch
  (recovery.setEpoch epoch { state with ackedFrames := [] }, state.ackedFrames)

def getLostFrames (recovery : GRecovery) (epoch : Epoch) : GRecovery × List Frame :=
  let state := recovery.epochs epoch
  (recovery.setEpoch epoch { state with lostFrames := [] }, state.lostFrames)

def pingSent (recovery : GRecovery) (epoch : Epoch) : GRecovery :=
  let state := recovery.epochs epoch
  recovery.setEpoch epoch { state with lossProbes := state.lossProbes - 1 }

end GRecovery

end Quiche
