import Quiche.Data.Machine
import Quiche.Recovery.Legacy

namespace Quiche

open Data Legacy

/-- `PRR` of RFC 6937. -/
structure Prr where
  prrDelivered : Nat
  recoverfs : Nat
  prrOut : Nat
  sndCnt : Nat
deriving DecidableEq

namespace Prr

def default : Prr := ⟨0, 0, 0, 0⟩

def onPacketSent (prr : Prr) (sentBytes : Nat) : Prr :=
  { prr with prrOut := prr.prrOut + sentBytes, sndCnt := prr.sndCnt - sentBytes }

def congestionEvent (bytesInFlight : Nat) : Prr := ⟨0, bytesInFlight, 0, 0⟩

def onPacketAcked (prr : Prr) (deliveredData pipe ssthresh maxDatagramSize : Nat) : Prr :=
  let prrDelivered := prr.prrDelivered + deliveredData
  let sndCnt :=
    if pipe > ssthresh then
      -- Proportional Rate Reduction.
      if prr.recoverfs > 0 then (prrDelivered * ssthresh + prr.recoverfs - 1) / prr.recoverfs - prr.prrOut else 0
    else
      -- PRR-SSRB: attempt to catch up, as permitted by limit.
      let limit := max (prrDelivered - prr.prrOut) deliveredData + maxDatagramSize
      min (ssthresh - pipe) limit
  { prr with prrDelivered, sndCnt }

end Prr

inductive CcAlgorithm where
  | reno
  | cubic
deriving DecidableEq

/-- `cubic::PriorState`, without its floating point numbers. -/
structure CubicPrior where
  congestionWindow : Nat
  ssthresh : Nat
  epochStart : Option Int
  lostCount : Nat
deriving DecidableEq

/-- `cubic::State`, without its floating point numbers. -/
structure CubicState where
  lastSentTime : Option Int
  cwndInc : Nat
  prior : CubicPrior
deriving DecidableEq

/-- `Congestion` with `RENO` or `CUBIC`. The state of pacing, of delivery rates and of
HyStart++ is left out, as are the reasons for the end of slow start. -/
structure Congestion where
  ccAlgorithm : CcAlgorithm
  cubicState : CubicState
  prr : Prr
  congestionWindow : Nat
  ssthresh : Nat
  bytesAckedSl : Nat
  bytesAckedCa : Nat
  congestionRecoveryStartTime : Option Int
  appLimited : Bool
  initialCongestionWindowPackets : Nat
  maxDatagramSize : Nat
  lostCount : Nat
deriving DecidableEq

structure AckChoice where
  inCss : Bool
  cssEnds : Bool
  cubicCwnd : Nat

/-- What a congestion event multiplies by a floating point number: the window, and
`bytes_acked_ca` or `cwnd_inc`. -/
structure LossChoice where
  window : Nat
  increment : Nat

def minimumWindowPackets : Nat := 2

def cssGrowthDivisor : Nat := 4

def rollbackThresholdPercent : Nat := 20

def minRollbackThreshold : Nat := 2

namespace Congestion

def fromConfig (ccAlgorithm : CcAlgorithm) (maxSendUdpPayloadSize initialCongestionWindowPackets : Nat) :
    Congestion where
  ccAlgorithm := ccAlgorithm
  cubicState := ⟨none, 0, ⟨0, 0, none, 0⟩⟩
  prr := .default
  congestionWindow := maxSendUdpPayloadSize * initialCongestionWindowPackets
  ssthresh := usizeMax
  bytesAckedSl := 0
  bytesAckedCa := 0
  congestionRecoveryStartTime := none
  appLimited := false
  initialCongestionWindowPackets := initialCongestionWindowPackets
  maxDatagramSize := maxSendUdpPayloadSize
  lostCount := 0

def inCongestionRecovery (cc : Congestion) (sentTime : Int) : Bool := cc.congestionRecoveryStartTime.any (sentTime ≤ ·)

def updateAppLimited (cc : Congestion) (value : Bool) : Congestion := { cc with appLimited := value }

/-- `on_packet_sent` of the algorithms: after a while without packets in flight CUBIC shifts the
start of its epoch. -/
def ccOnPacketSent (cc : Congestion) (bytesInFlight : Nat) (now : Int) : Congestion :=
  match cc.ccAlgorithm with
  | .reno => cc
  | .cubic =>
    let idle := match cc.cubicState.lastSentTime with
      | some last => if bytesInFlight = 0 then max (now - last) 0 else 0
      | none => 0
    { cc with
      congestionRecoveryStartTime := cc.congestionRecoveryStartTime.map (· + idle)
      cubicState := { cc.cubicState with lastSentTime := some now } }

def onPacketSent (cc : Congestion) (bytesInFlight sentBytes : Nat) (now : Int) (inFlight : Bool) : Congestion :=
  if inFlight then
    let cc := cc.updateAppLimited (decide (bytesInFlight + sentBytes < cc.congestionWindow))
    let cc := cc.ccOnPacketSent bytesInFlight now
    { cc with prr := cc.prr.onPacketSent sentBytes }
  else cc

/-- `cubic::rollback`, which Reno leaves out. -/
def rollback (cc : Congestion) : Congestion × Bool :=
  match cc.ccAlgorithm with
  | .reno => (cc, true)
  | .cubic =>
    let prior := cc.cubicState.prior
    -- Don't go back to slow start.
    if prior.congestionWindow < prior.ssthresh then (cc, false)
    else if cc.congestionWindow ≥ prior.congestionWindow then (cc, false)
    else
      ({ cc with
        congestionWindow := prior.congestionWindow
        ssthresh := prior.ssthresh
        congestionRecoveryStartTime := prior.epochStart },
      true)

def checkpoint (cc : Congestion) : Congestion :=
  match cc.ccAlgorithm with
  | .reno => cc
  | .cubic => { cc with cubicState := { cc.cubicState with
      prior := ⟨cc.congestionWindow, cc.ssthresh, cc.congestionRecoveryStartTime, cc.lostCount⟩ } }

def slowStartInc (cc : Congestion) (choice : AckChoice) : Nat :=
  if choice.inCss then cc.maxDatagramSize / cssGrowthDivisor else cc.maxDatagramSize

/-- `reno::on_packet_acked` -/
def renoOnPacketAcked (cc : Congestion) (packet : Acked) (choice : AckChoice) : Congestion :=
  if cc.inCongestionRecovery packet.timeSent then cc
  else if cc.appLimited then cc
  else if cc.congestionWindow < cc.ssthresh then
    let congestionWindow := cc.congestionWindow + cc.slowStartInc choice
    { cc with
      bytesAckedSl := cc.bytesAckedSl + packet.size
      congestionWindow
      ssthresh := if choice.cssEnds then congestionWindow else cc.ssthresh }
  else
    let bytesAckedCa := cc.bytesAckedCa + packet.size
    if bytesAckedCa ≥ cc.congestionWindow then
      { cc with
        bytesAckedCa := bytesAckedCa - cc.congestionWindow
        congestionWindow := cc.congestionWindow + cc.maxDatagramSize }
    else { cc with bytesAckedCa }

def fewLost (cc : Congestion) : Option Bool := do
  let newLost ← subChecked cc.lostCount cc.cubicState.prior.lostCount
  if cc.maxDatagramSize = 0 then none
  else
    let threshold := cc.congestionWindow / cc.maxDatagramSize * rollbackThresholdPercent / 100
    return decide (newLost < max threshold minRollbackThreshold)

def spurious (cc : Congestion) : Option Bool :=
  if cc.congestionRecoveryStartTime.isSome then cc.fewLost else some false

/-- The slow start of `cubic::on_packet_acked`. -/
def cubicSlowStart (cc : Congestion) (packet : Acked) (choice : AckChoice) : Congestion :=
  let bytesAckedSl := cc.bytesAckedSl + packet.size
  let cc :=
    if bytesAckedSl ≥ cc.maxDatagramSize then
      { cc with
        bytesAckedSl := bytesAckedSl - cc.maxDatagramSize
        congestionWindow := cc.congestionWindow + cc.slowStartInc choice }
    else { cc with bytesAckedSl }
  if choice.cssEnds then { cc with ssthresh := cc.congestionWindow } else cc

/-- The congestion avoidance of `cubic::on_packet_acked`. -/
def cubicAvoidance (cc : Congestion) (choice : AckChoice) (now : Int) : Congestion :=
  -- Without a congestion event the epoch starts here.
  let cc := { cc with congestionRecoveryStartTime :=
    if choice.inCss then cc.congestionRecoveryStartTime else cc.congestionRecoveryStartTime.or (some now) }
  let cubicCwnd := max cc.congestionWindow choice.cubicCwnd
  let cwndInc := cc.cubicState.cwndInc + (cubicCwnd - cc.congestionWindow)
  if cwndInc ≥ cc.maxDatagramSize then
    { cc with
      congestionWindow := cc.congestionWindow + cc.maxDatagramSize
      cubicState := { cc.cubicState with cwndInc := cwndInc - cc.maxDatagramSize } }
  else { cc with cubicState := { cc.cubicState with cwndInc } }

/-- `cubic::on_packet_acked`; `none` is an underflow or a division by zero. -/
def cubicOnPacketAcked (cc : Congestion) (bytesInFlight : Nat) (packet : Acked) (choice : AckChoice) (now : Int) :
    Option Congestion :=
  if cc.inCongestionRecovery packet.timeSent then
    some { cc with prr := cc.prr.onPacketAcked packet.size bytesInFlight cc.ssthresh cc.maxDatagramSize }
  else if cc.appLimited then some cc
  else do
    let spurious ← cc.spurious
    let (cc, rolledBack) := if spurious then cc.rollback else (cc, false)
    if rolledBack then return cc
    else if cc.congestionWindow < cc.ssthresh then return cc.cubicSlowStart packet choice
    else return cc.cubicAvoidance choice now

def onPacketAcked (cc : Congestion) (bytesInFlight : Nat) (packet : Acked) (choice : AckChoice) (now : Int) :
    Option Congestion :=
  match cc.ccAlgorithm with
  | .reno => some (cc.renoOnPacketAcked packet choice)
  | .cubic => cc.cubicOnPacketAcked bytesInFlight packet choice now

/-- `on_packets_acked`, with a choice for each packet number. -/
def onPacketsAcked (cc : Congestion) (bytesInFlight : Nat) (packets : List Acked) (choices : Nat → AckChoice)
    (now : Int) : Option Congestion :=
  packets.foldlM (fun cc packet => cc.onPacketAcked bytesInFlight packet (choices packet.pktNum) now) cc

/-- `congestion_event`, which a packet of the current recovery period does not start. -/
def congestionEvent (cc : Congestion) (bytesInFlight : Nat) (timeSent : Int) (choice : LossChoice) (now : Int) :
    Congestion :=
  if cc.inCongestionRecovery timeSent then cc
  else
    let window := max choice.window (cc.maxDatagramSize * minimumWindowPackets)
    let cc := { cc with congestionRecoveryStartTime := some now, congestionWindow := window, ssthresh := window }
    match cc.ccAlgorithm with
    | .reno => { cc with bytesAckedCa := choice.increment }
    | .cubic => { cc with
        cubicState := { cc.cubicState with cwndInc := choice.increment }
        prr := .congestionEvent bytesInFlight }

/-- What `detect_lost_packets` tells congestion control. -/
def onPacketsLost (cc : Congestion) (bytesInFlight : Nat) (loss : LossDetectionResult) (choice : LossChoice)
    (now : Int) : Congestion :=
  let cc := match loss.largestLostPkt with
    | none => cc
    | some pkt =>
      let cc := if cc.inCongestionRecovery pkt.timeSent then cc else cc.checkpoint
      cc.congestionEvent bytesInFlight pkt.timeSent choice now
  { cc with lostCount := cc.lostCount + loss.lostPackets }

end Congestion

/-- `LegacyRecovery` together with its congestion control. -/
structure Controlled where
  recovery : LegacyRecovery
  congestion : Congestion
  maxDatagramSize : Nat

namespace Controlled

/-- `new_with_config` -/
def new (ccAlgorithm : CcAlgorithm) (maxSendUdpPayloadSize initialCongestionWindowPackets initialRtt maxAckDelay : Nat)
    (now : Int) : Controlled where
  recovery := .new initialRtt maxAckDelay now
  congestion := .fromConfig ccAlgorithm maxSendUdpPayloadSize initialCongestionWindowPackets
  maxDatagramSize := maxSendUdpPayloadSize

def bytesInFlight (controlled : Controlled) : Nat := controlled.recovery.bytesInFlight.bytesInFlight

def cwnd (controlled : Controlled) : Nat := controlled.congestion.congestionWindow

def probes (controlled : Controlled) : Bool :=
  [Epoch.initial, .handshake, .application].any fun epoch => (controlled.recovery.epochs epoch).lossProbes > 0

def cwndAvailable (controlled : Controlled) : Nat :=
  -- Ignore cwnd when sending probe packets.
  if controlled.probes then usizeMax
  -- Open more space (snd_cnt) for PRR when allowed.
  else controlled.cwnd - controlled.bytesInFlight + controlled.congestion.prr.sndCnt

/-- Congestion control dates the packet with `packetSendTime`, to which pacing puts it off. -/
def onPacketSent (controlled : Controlled) (pkt : Sent) (epoch : Epoch) (handshakeStatus : HandshakeStatus)
    (now packetSendTime : Int) : Controlled :=
  { controlled with
    congestion := controlled.congestion.onPacketSent controlled.bytesInFlight pkt.size now pkt.inFlight
    recovery := controlled.recovery.onPacketSent { pkt with timeSent := packetSendTime } epoch handshakeStatus now }

/-- `detect_lost_packets`; congestion control sees the bytes in flight before the loss. -/
def detectLostPackets (mulF64 : Nat → Rat → Nat) (controlled : Controlled) (epoch : Epoch) (choice : LossChoice)
    (now : Int) : Option (Controlled × LossDetectionResult) := do
  let (recovery, loss) ← controlled.recovery.detectLostPackets mulF64 epoch now
  let congestion := controlled.congestion.onPacketsLost controlled.bytesInFlight loss choice now
  return ({ controlled with recovery, congestion }, loss)

/-- The part of `on_ack_received` that comes before congestion control learns of the packets in
`newly_acked`, of which there may be none. -/
def detectAckedPackets (mulF64 : Nat → Rat → Nat) (controlled : Controlled) (peerSentAckRanges : RangeSet)
    (ackDelay : Nat) (epoch : Epoch) (handshakeStatus : HandshakeStatus) (now : Int) (skipPn : Option Nat)
    (wrap : Nat) (choice : LossChoice) :
    Option (Controlled × Except Error (Option (AckedDetectionResult × LossDetectionResult))) := do
  let recovery := controlled.recovery
  let (state, newlyAcked, outcome) ← (recovery.epochs epoch).detectAndRemoveAckedPackets now peerSentAckRanges
    recovery.rttStats.smoothedRtt skipPn wrap
  let recovery := { recovery.setEpoch epoch state with newlyAcked }
  match outcome with
  | .error error => return ({ controlled with recovery }, .error error)
  | .ok result =>
    let recovery := recovery.onSpuriousLosses result
    -- Undo congestion window update.
    let congestion :=
      if result.hasInFlightSpuriousLoss then controlled.congestion.rollback.1 else controlled.congestion
    match newlyAcked.getLast? with
    | none => return ({ controlled with recovery, congestion }, .ok none)
    | some largestNewlyAcked =>
      let recovery := recovery.onLargestNewlyAcked largestNewlyAcked result.hasAckEliciting ackDelay epoch
        handshakeStatus now
      let (controlled, loss) ← { controlled with recovery, congestion : Controlled }.detectLostPackets mulF64
        epoch choice now
      return (controlled, .ok (some (result, loss)))

def onAckReceived (mulF64 : Nat → Rat → Nat) (controlled : Controlled) (peerSentAckRanges : RangeSet)
    (ackDelay : Nat) (epoch : Epoch) (handshakeStatus : HandshakeStatus) (now : Int) (skipPn : Option Nat)
    (wrap : Nat) (choices : Nat → AckChoice) (choice : LossChoice) :
    Option (Controlled × Except Error (OnAckReceivedOutcome × List Nat)) := do
  let (controlled, detected) ← controlled.detectAckedPackets mulF64 peerSentAckRanges ackDelay epoch
    handshakeStatus now skipPn wrap choice
  match detected with
  | .error error => return (controlled, .error error)
  | .ok none => return (controlled, .ok (⟨0, 0, 0, 0⟩, []))
  | .ok (some (result, loss)) =>
    let congestion ← controlled.congestion.onPacketsAcked controlled.bytesInFlight controlled.recovery.newlyAcked
      choices now
    let recovery := { controlled.recovery with
      bytesInFlight := controlled.recovery.bytesInFlight.saturatingSubtract result.ackedBytes now
      ptoCount := 0 }
    let recovery := recovery.setLossDetectionTimer handshakeStatus now
    let state := (recovery.epochs epoch).drainAckedAndLostPackets (now - recovery.rttStats.smoothedRtt)
    return ({ controlled with recovery := recovery.setEpoch epoch state, congestion },
      .ok (⟨loss.lostPackets, loss.lostBytes, result.ackedBytes, result.spuriousLosses⟩, loss.lostPkts))

def onLossDetectionTimeout (mulF64 : Nat → Rat → Nat) (controlled : Controlled) (handshakeStatus : HandshakeStatus)
    (now : Int) (choice : LossChoice) : Option Controlled :=
  let (earliestLossTime, epoch) := controlled.recovery.lossTimeAndSpace
  if earliestLossTime.isSome then do
    let (controlled, _) ← controlled.detectLostPackets mulF64 epoch choice now
    return { controlled with recovery := controlled.recovery.setLossDetectionTimer handshakeStatus now }
  else
    let recovery := controlled.recovery.onProbeTimeout (controlled.recovery.probeSpace handshakeStatus now)
    some { controlled with recovery := recovery.setLossDetectionTimer handshakeStatus now }

/-- `pmtud_update_max_datagram_size` -/
def pmtudUpdateMaxDatagramSize (controlled : Controlled) (newMaxDatagramSize : Nat) : Controlled :=
  let packets := controlled.congestion.initialCongestionWindowPackets
  -- Congestion Window is updated only when it's not updated already.
  let congestionWindow :=
    if controlled.cwnd = controlled.maxDatagramSize * packets then newMaxDatagramSize * packets else controlled.cwnd
  { controlled with
    congestion := { controlled.congestion with congestionWindow }
    maxDatagramSize := newMaxDatagramSize }

def updateMaxDatagramSize (controlled : Controlled) (newMaxDatagramSize : Nat) : Controlled :=
  controlled.pmtudUpdateMaxDatagramSize (min controlled.maxDatagramSize newMaxDatagramSize)

inductive Op where
  | packetSent (pkt : Sent) (epoch : Epoch) (handshakeStatus : HandshakeStatus) (now packetSendTime : Int)
  | ackReceived (ranges : RangeSet) (ackDelay : Nat) (epoch : Epoch) (handshakeStatus : HandshakeStatus) (now : Int)
      (skipPn : Option Nat) (wrap : Nat) (choices : Nat → AckChoice) (choice : LossChoice)
  | lossDetectionTimeout (handshakeStatus : HandshakeStatus) (now : Int) (choice : LossChoice)
  | pathChange (epoch : Epoch) (now : Int) (choice : LossChoice)
  | pktNumSpaceDiscarded (epoch : Epoch) (handshakeStatus : HandshakeStatus) (now : Int)
  | pingSent (epoch : Epoch)
  | updateAppLimited (value : Bool)
  | pmtudUpdateMaxDatagramSize (size : Nat)
  | updateMaxDatagramSize (size : Nat)

def step (mulF64 : Nat → Rat → Nat) (controlled : Controlled) : Op → Option Controlled
  | .packetSent pkt epoch handshakeStatus now packetSendTime =>
    some (controlled.onPacketSent pkt epoch handshakeStatus now packetSendTime)
  | .ackReceived ranges ackDelay epoch handshakeStatus now skipPn wrap choices choice =>
    (controlled.onAckReceived mulF64 ranges ackDelay epoch handshakeStatus now skipPn wrap choices choice).map
      Prod.fst
  | .lossDetectionTimeout handshakeStatus now choice =>
    controlled.onLossDetectionTimeout mulF64 handshakeStatus now choice
  | .pathChange epoch now choice => (controlled.detectLostPackets mulF64 epoch choice now).map Prod.fst
  | .pktNumSpaceDiscarded epoch handshakeStatus now =>
    some { controlled with recovery := controlled.recovery.onPktNumSpaceDiscarded epoch handshakeStatus now }
  | .pingSent epoch => some { controlled with recovery := controlled.recovery.pingSent epoch }
  | .updateAppLimited value => some { controlled with congestion := controlled.congestion.updateAppLimited value }
  | .pmtudUpdateMaxDatagramSize size => some (controlled.pmtudUpdateMaxDatagramSize size)
  | .updateMaxDatagramSize size => some (controlled.updateMaxDatagramSize size)

def machine (mulF64 : Nat → Rat → Nat) : Machine Controlled Op := ⟨step mulF64⟩

end Controlled

end Quiche
