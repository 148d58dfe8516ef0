import Quiche.Recovery.Gcongestion
import Quiche.Recovery.Gcongestion.AckHeight
import Quiche.Recovery.Gcongestion.Bbr.StateMap

namespace Quiche.Bbr

open Data Gcongestion

structure SendTimeState where
  isValid : Bool
  isAppLimited : Bool
  totalBytesSent : Nat
  totalBytesAcked : Nat
  totalBytesLost : Nat
  bytesInFlight : Nat
deriving DecidableEq

def SendTimeState.default : SendTimeState := ⟨false, false, 0, 0, 0, 0⟩

structure BandwidthSample where
  bandwidth : Bandwidth
  rtt : Nat
  sendRate : Option Bandwidth
  stateAtSend : SendTimeState
deriving DecidableEq

structure AckPoint where
  ackTime : Int
  totalBytesAcked : Nat
deriving DecidableEq

/-- The two entries of `ack_points`, the older one first. -/
structure RecentAckPoints where
  older : Option AckPoint
  newer : Option AckPoint
deriving DecidableEq

structure ConnectionStateOnSentPacket where
  sentTime : Int
  size : Nat
  totalBytesSentAtLastAckedPacket : Nat
  lastAckedPacketSentTime : Int
  lastAckedPacketAckTime : Int
  sendTimeState : SendTimeState
deriving DecidableEq

structure CongestionEventSample where
  sampleMaxBandwidth : Option Bandwidth
  sampleIsAppLimited : Bool
  sampleRtt : Option Nat
  sampleMaxInflight : Nat
  lastPacketSendState : SendTimeState
  extraAcked : Nat
deriving DecidableEq

def CongestionEventSample.default : CongestionEventSample := ⟨none, false, none, 0, .default, 0⟩

/-- A field that is never set but to false, `limit_max_ack_height_tracker_by_send_rate`, is left out. -/
structure BandwidthSampler where
  totalBytesSent : Nat
  totalBytesAcked : Nat
  totalBytesLost : Nat
  totalBytesNeutered : Nat
  lastSentPacket : Nat
  lastAckedPacket : Nat
  isAppLimited : Bool
  lastAckedPacketAckTime : Int
  totalBytesSentAtLastAckedPacket : Nat
  lastAckedPacketSentTime : Int
  recentAckPoints : RecentAckPoints
  a0Candidates : List AckPoint
  connectionStateMap : ConnectionStateMap ConnectionStateOnSentPacket
  maxAckHeightTracker : MaxAckHeightTracker
  endOfAppLimitedPhase : Option Nat
  overestimateAvoidance : Bool
  chooseA0PointFix : Bool
  totalBytesAckedAfterLastAckEvent : Nat

namespace RecentAckPoints

def default : RecentAckPoints := ⟨none, none⟩

/-- `none` is the assertion that the acknowledged bytes do not decrease. -/
def update (points : RecentAckPoints) (ackTime : Int) (totalBytesAcked : Nat) : Option RecentAckPoints :=
  if totalBytesAcked ≥ (points.newer.map AckPoint.totalBytesAcked).getD 0 then
    some ⟨points.newer, some ⟨ackTime, totalBytesAcked⟩⟩
  else none

def mostRecent (points : RecentAckPoints) : Option AckPoint := points.newer

def lessRecentPoint (points : RecentAckPoints) (chooseA0PointFix : Bool) : Option AckPoint :=
  if chooseA0PointFix then (points.older.filter fun point => point.totalBytesAcked > 0).or points.newer
  else points.older.or points.newer

end RecentAckPoints

def above : Option Bandwidth → Option Bandwidth → Bool
  | some left, some right => decide (left.bitsPerSecond > right.bitsPerSecond)
  | some _, none => true
  | none, _ => false

def maxBandwidth (left right : Option Bandwidth) : Option Bandwidth := if above left right then left else right

def minBandwidth (left right : Bandwidth) : Bandwidth :=
  if right.bitsPerSecond < left.bitsPerSecond then right else left

def CongestionEventSample.add (eventSample : CongestionEventSample) (sample : BandwidthSample) (inflightSample : Nat) :
    CongestionEventSample :=
  let larger := above (some sample.bandwidth) eventSample.sampleMaxBandwidth
  { eventSample with
    sampleRtt := some (min sample.rtt (eventSample.sampleRtt.getD sample.rtt))
    sampleMaxBandwidth := if larger then some sample.bandwidth else eventSample.sampleMaxBandwidth
    sampleIsAppLimited := if larger then sample.stateAtSend.isAppLimited else eventSample.sampleIsAppLimited
    sampleMaxInflight := max eventSample.sampleMaxInflight inflightSample }

namespace BandwidthSampler

def new (maxHeightTrackerWindowLength : Nat) (overestimateAvoidance chooseA0PointFix : Bool)
    (lastAckedPacketSentTime lastAckedPacketAckTime : Int) : BandwidthSampler where
  totalBytesSent := 0
  totalBytesAcked := 0
  totalBytesLost := 0
  totalBytesNeutered := 0
  lastSentPacket := 0
  lastAckedPacket := 0
  isAppLimited := true
  lastAckedPacketAckTime := lastAckedPacketAckTime
  totalBytesSentAtLastAckedPacket := 0
  lastAckedPacketSentTime := lastAckedPacketSentTime
  recentAckPoints := .default
  a0Candidates := []
  connectionStateMap := []
  maxAckHeightTracker := .new maxHeightTrackerWindowLength overestimateAvoidance
  endOfAppLimitedPhase := none
  overestimateAvoidance := overestimateAvoidance
  chooseA0PointFix := chooseA0PointFix
  totalBytesAckedAfterLastAckEvent := 0

def stateOnSent (sampler : BandwidthSampler) (sentTime : Int) (size bytesInFlight : Nat) :
    ConnectionStateOnSentPacket where
  sentTime := sentTime
  size := size
  totalBytesSentAtLastAckedPacket := sampler.totalBytesSentAtLastAckedPacket
  lastAckedPacketSentTime := sampler.lastAckedPacketSentTime
  lastAckedPacketAckTime := sampler.lastAckedPacketAckTime
  sendTimeState :=
    ⟨true, sampler.isAppLimited, sampler.totalBytesSent, sampler.totalBytesAcked, sampler.totalBytesLost, bytesInFlight⟩

def openPoints (sampler : BandwidthSampler) (sentTime : Int) : Option BandwidthSampler :=
  if sampler.overestimateAvoidance then do
    let recentAckPoints ← RecentAckPoints.default.update sentTime sampler.totalBytesAcked
    let point ← recentAckPoints.mostRecent
    return { sampler with recentAckPoints, a0Candidates := [point] }
  else some sampler

def openTransmission (sampler : BandwidthSampler) (sentTime : Int) : Option BandwidthSampler := do
  let sampler ← { sampler with lastAckedPacketAckTime := sentTime }.openPoints sentTime
  return { sampler with
    totalBytesSentAtLastAckedPacket := sampler.totalBytesSent
    lastAckedPacketSentTime := sentTime }

/-- `on_packet_sent`, up to the storing of the packet's state. -/
def count (sampler : BandwidthSampler) (sentTime : Int) (packetNumber bytes bytesInFlight : Nat) :
    Option BandwidthSampler :=
  let sampler := { sampler with
    lastSentPacket := packetNumber
    totalBytesSent := sampler.totalBytesSent + bytes }
  if bytesInFlight = 0 then sampler.openTransmission sentTime else some sampler

def onPacketSent (sampler : BandwidthSampler) (sentTime : Int) (packetNumber bytes bytesInFlight : Nat)
    (hasRetransmittableData : Bool) : Option BandwidthSampler :=
  if ¬ hasRetransmittableData then some { sampler with lastSentPacket := packetNumber }
  else do
    let sampler ← sampler.count sentTime packetNumber bytes bytesInFlight
    let connectionStateMap ← sampler.connectionStateMap.insert packetNumber
      (sampler.stateOnSent sentTime bytes (bytesInFlight + bytes))
    return { sampler with connectionStateMap }

def onPacketNeutered (sampler : BandwidthSampler) (packetNumber : Nat) : BandwidthSampler :=
  let (taken, connectionStateMap) := sampler.connectionStateMap.take packetNumber
  let size := (taken.map ConnectionStateOnSentPacket.size).getD 0
  { sampler with totalBytesNeutered := sampler.totalBytesNeutered + size, connectionStateMap }

def onPacketLost (sampler : BandwidthSampler) (packetNumber bytesLost : Nat) : SendTimeState × BandwidthSampler :=
  let (taken, connectionStateMap) := sampler.connectionStateMap.take packetNumber
  let sendTimeState := match taken with
    | some state => { state.sendTimeState with isValid := true }
    | none => .default
  (sendTimeState, { sampler with totalBytesLost := sampler.totalBytesLost + bytesLost, connectionStateMap })

def chooseA0Point (totalBytesAcked : Nat) (chooseA0PointFix : Bool) : List AckPoint → Option AckPoint × List AckPoint
  | [] => (none, [])
  | [only] => (some only, [only])
  | first :: second :: rest =>
    if second.totalBytesAcked > totalBytesAcked then
      (some (if chooseA0PointFix then first else second), first :: second :: rest)
    else chooseA0Point totalBytesAcked chooseA0PointFix (second :: rest)

def updatePoints (sampler : BandwidthSampler) (ackTime : Int) (totalBytesAcked : Nat) : Option RecentAckPoints :=
  if sampler.overestimateAvoidance then sampler.recentAckPoints.update ackTime totalBytesAcked
  else some sampler.recentAckPoints

/-- The first part of `on_packet_acknowledged`: the packet is counted. -/
def credit (sampler : BandwidthSampler) (ackTime : Int) (packetNumber : Nat) (sentPacket : ConnectionStateOnSentPacket) :
    Option BandwidthSampler := do
  let totalBytesAcked := sampler.totalBytesAcked + sentPacket.size
  let recentAckPoints ← sampler.updatePoints ackTime totalBytesAcked
  let leaves := sampler.isAppLimited ∧
    (sampler.endOfAppLimitedPhase.isNone ∨ ∃ last ∈ sampler.endOfAppLimitedPhase, packetNumber > last)
  return { sampler with
    totalBytesAcked
    totalBytesSentAtLastAckedPacket := sentPacket.sendTimeState.totalBytesSent
    lastAckedPacketSentTime := sentPacket.sentTime
    lastAckedPacketAckTime := ackTime
    recentAckPoints
    isAppLimited := if leaves then false else sampler.isAppLimited }

def sendRate (checks : OverflowChecks) (sentPacket : ConnectionStateOnSentPacket) : Option (Option Bandwidth) :=
  if sentPacket.sentTime > sentPacket.lastAckedPacketSentTime then do
    let bytes ← subUsize sentPacket.sendTimeState.totalBytesSent sentPacket.totalBytesSentAtLastAckedPacket
    let rate ← Bandwidth.fromBytesAndTimeDelta checks (UInt64.ofNat bytes)
      (sentPacket.sentTime - sentPacket.lastAckedPacketSentTime).toNat
    return some rate
  else some none

/-- The last part of `on_packet_acknowledged`: the sample between the A0 point and now. -/
def sample (checks : OverflowChecks) (totalBytesAcked : Nat) (ackTime : Int) (sentPacket : ConnectionStateOnSentPacket)
    (sendRate : Option Bandwidth) (a0 : AckPoint) : Option (Option BandwidthSample) :=
  if ackTime ≤ a0.ackTime then some none
  else do
    let bytes ← subUsize totalBytesAcked a0.totalBytesAcked
    let ackRate ← Bandwidth.fromBytesAndTimeDelta checks (UInt64.ofNat bytes) (ackTime - a0.ackTime).toNat
    return some {
      bandwidth := match sendRate with
        | some sendRate => minBandwidth sendRate ackRate
        | none => ackRate
      rtt := (ackTime - sentPacket.sentTime).toNat
      sendRate
      stateAtSend := { sentPacket.sendTimeState with isValid := true } }

def onPacketAcknowledged (checks : OverflowChecks) (sampler : BandwidthSampler) (ackTime : Int) (packetNumber : Nat) :
    Option (Option BandwidthSample × BandwidthSampler) :=
  let (taken, connectionStateMap) := sampler.connectionStateMap.take packetNumber
  let sampler := { sampler with lastAckedPacket := packetNumber, connectionStateMap }
  match taken with
  | none => some (none, sampler)
  | some sentPacket => do
    let sampler ← sampler.credit ackTime packetNumber sentPacket
    let sendRate ← sendRate checks sentPacket
    let (chosen, a0Candidates) :=
      if sampler.overestimateAvoidance then
        chooseA0Point sentPacket.sendTimeState.totalBytesAcked sampler.chooseA0PointFix sampler.a0Candidates
      else (none, sampler.a0Candidates)
    let a0 := chosen.getD ⟨sentPacket.lastAckedPacketAckTime, sentPacket.sendTimeState.totalBytesAcked⟩
    let sample ← sample checks sampler.totalBytesAcked ackTime sentPacket sendRate a0
    return (sample, { sampler with a0Candidates })

/-- `none` for an assertion or an `unwrap` that fails, or a subtraction that underflows. -/
def onAckEventEnd (checks : OverflowChecks) (sampler : BandwidthSampler) (bandwidthEstimate : Bandwidth)
    (isNewMaxBandwidth : Bool) (roundTripCount : Nat) : Option (Nat × BandwidthSampler) := do
  let newlyAckedBytes ← subUsize sampler.totalBytesAcked sampler.totalBytesAckedAfterLastAckEvent
  if newlyAckedBytes = 0 then return (0, sampler)
  else
    let (maxAckHeightTracker, extraAcked) ← sampler.maxAckHeightTracker.update checks
      ⟨bandwidthEstimate, isNewMaxBandwidth, roundTripCount, sampler.lastSentPacket, sampler.lastAckedPacket,
        sampler.lastAckedPacketAckTime, newlyAckedBytes⟩
    let sampler := { sampler with
      totalBytesAckedAfterLastAckEvent := sampler.totalBytesAcked
      maxAckHeightTracker }
    if sampler.overestimateAvoidance ∧ extraAcked = 0 then do
      let point ← sampler.recentAckPoints.lessRecentPoint sampler.chooseA0PointFix
      return (extraAcked, { sampler with a0Candidates := sampler.a0Candidates ++ [point] })
    else return (extraAcked, sampler)

structure LastPacket where
  sendState : SendTimeState
  num : Nat

def LastPacket.default : LastPacket := ⟨.default, 0⟩

def lose (state : LastPacket × BandwidthSampler) (packet : Lost) : LastPacket × BandwidthSampler :=
  let (sendState, sampler) := state.2.onPacketLost packet.packetNumber packet.bytesLost
  (if sendState.isValid then ⟨sendState, packet.packetNumber⟩ else state.1, sampler)

structure AckLoop where
  sampler : BandwidthSampler
  eventSample : CongestionEventSample
  last : LastPacket

def acknowledge (checks : OverflowChecks) (ackTime : Int) (loop : AckLoop) (packet : Acked) : Option AckLoop := do
  let (sample, sampler) ← loop.sampler.onPacketAcknowledged checks ackTime packet.pktNum
  match sample with
  | some sample =>
    if sample.stateAtSend.isValid then do
      let inflightSample ← subUsize sampler.totalBytesAcked sample.stateAtSend.totalBytesAcked
      return ⟨sampler, loop.eventSample.add sample inflightSample, ⟨sample.stateAtSend, packet.pktNum⟩⟩
    else return { loop with sampler }
  | none => return { loop with sampler }

def lastSendState (lost acked : LastPacket) : SendTimeState :=
  if ¬ lost.sendState.isValid then acked.sendState
  else if ¬ acked.sendState.isValid then lost.sendState
  else if acked.num > lost.num then acked.sendState
  else lost.sendState

def estimate (maxBandwidth : Option Bandwidth) (estBandwidthUpperBound : Bandwidth) : Bandwidth :=
  match maxBandwidth with
  | some maxBandwidth => minBandwidth maxBandwidth estBandwidthUpperBound
  | none => estBandwidthUpperBound

def onCongestionEvent (checks : OverflowChecks) (sampler : BandwidthSampler) (ackTime : Int) (ackedPackets : List Acked)
    (lostPackets : List Lost) (knownBandwidth : Option Bandwidth) (estBandwidthUpperBound : Bandwidth)
    (roundTripCount : Nat) : Option (CongestionEventSample × BandwidthSampler) :=
  let (lost, sampler) := lostPackets.foldl lose (.default, sampler)
  if ackedPackets.isEmpty then some ({ CongestionEventSample.default with lastPacketSendState := lost.sendState },
    sampler)
  else do
    let loop ← ackedPackets.foldlM (acknowledge checks ackTime) ⟨sampler, .default, .default⟩
    let isNewMaxBandwidth := above loop.eventSample.sampleMaxBandwidth knownBandwidth
    let bandwidthEstimate :=
      estimate (maxBandwidth loop.eventSample.sampleMaxBandwidth knownBandwidth) estBandwidthUpperBound
    let (extraAcked, sampler) ← loop.sampler.onAckEventEnd checks bandwidthEstimate isNewMaxBandwidth roundTripCount
    return ({ loop.eventSample with lastPacketSendState := lastSendState lost loop.last, extraAcked }, sampler)

def onAppLimited (sampler : BandwidthSampler) : BandwidthSampler :=
  { sampler with isAppLimited := true, endOfAppLimitedPhase := some sampler.lastSentPacket }

def removeObsoletePackets (sampler : BandwidthSampler) (leastAcked : Nat) : BandwidthSampler :=
  { sampler with connectionStateMap := sampler.connectionStateMap.removeObsolete leastAcked }

end BandwidthSampler

end Quiche.Bbr
