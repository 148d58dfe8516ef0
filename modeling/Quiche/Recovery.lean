import Quiche.Data.PartitionPoint
import Quiche.Data.Sweep
import Quiche.Frame

namespace Quiche

open Data

/-! What the two implementations of loss recovery have in common. An `Instant` is an integer
and a `Duration` a natural number of nanoseconds. -/

inductive Epoch where
  | initial
  | handshake
  | application
deriving DecidableEq

instance {holds : Epoch → Prop} [DecidablePred holds] : Decidable (∀ epoch, holds epoch) :=
  decidable_of_iff (holds .initial ∧ holds .handshake ∧ holds .application)
    ⟨fun ⟨_, _, _⟩ epoch => by cases epoch <;> assumption, fun all => ⟨all _, all _, all _⟩⟩

instance {holds : Epoch → Prop} [DecidablePred holds] : Decidable (∃ epoch, holds epoch) :=
  decidable_of_iff (holds .initial ∨ holds .handshake ∨ holds .application)
    ⟨by rintro (is | is | is) <;> exact ⟨_, is⟩, fun ⟨epoch, is⟩ => by cases epoch <;> simp [is]⟩

def initialPacketThreshold : Nat := 3

def maxPacketThreshold : Nat := 20

def initialTimeThreshold : Rat := 9 / 8

def packetReorderTimeThreshold : Rat := 5 / 4

def initialTimeThresholdOverhead : Rat := 1 / 8

def timeThresholdOverheadMultiplier : Rat := 2

def granularity : Nat := 1000000

def maxPtoProbesCount : Nat := 2

/-- A packet that was sent. What only congestion control reads is left out; `timeSent` is
the time at which the pacer released it. -/
structure Sent where
  pktNum : Nat
  frames : List Frame
  timeSent : Int
  timeAcked : Option Int
  timeLost : Option Int
  size : Nat
  ackEliciting : Bool
  inFlight : Bool
  hasData : Bool
  isPmtudProbe : Bool
deriving DecidableEq

structure HandshakeStatus where
  hasHandshakeKeys : Bool
  peerVerifiedAddress : Bool
  completed : Bool
deriving DecidableEq

structure OnAckReceivedOutcome where
  lostPackets : Nat
  lostBytes : Nat
  ackedBytes : Nat
  spuriousLosses : Nat

structure OnLossDetectionTimeoutOutcome where
  lostPackets : Nat
  lostBytes : Nat

/-- `saturated` says that a subtraction was cut off at zero; no function reads it. -/
structure BytesInFlight where
  bytesInFlight : Nat
  bytesInFlightIntervalStart : Option Int
  openIntervalDuration : Nat
  closedIntervalDuration : Nat
  saturated : Bool

namespace BytesInFlight

/-- `Default` -/
def default : BytesInFlight := ⟨0, none, 0, 0, false⟩

def updateInFlightDuration (bytes : BytesInFlight) (now : Int) : BytesInFlight :=
  match bytes.bytesInFlightIntervalStart with
  | none => bytes
  | some start =>
    if bytes.bytesInFlight = 0 then
      { bytes with
        openIntervalDuration := 0
        closedIntervalDuration := bytes.closedIntervalDuration + (now - start).toNat
        bytesInFlightIntervalStart := none }
    else { bytes with openIntervalDuration := (now - start).toNat }

def add (bytes : BytesInFlight) (delta : Nat) (now : Int) : BytesInFlight :=
  if delta = 0 then bytes
  else
    let bytes := { bytes with bytesInFlight := bytes.bytesInFlight + delta }
    if bytes.bytesInFlightIntervalStart.isSome then bytes.updateInFlightDuration now
    else { bytes with bytesInFlightIntervalStart := some now }

def saturatingSubtract (bytes : BytesInFlight) (delta : Nat) (now : Int) : BytesInFlight :=
  { bytes with
    bytesInFlight := bytes.bytesInFlight - delta
    saturated := bytes.saturated || decide (bytes.bytesInFlight < delta) }.updateInFlightDuration now

def isZero (bytes : BytesInFlight) : Bool := bytes.bytesInFlight == 0

end BytesInFlight

/-- The largest number in the ranges; `none` is an empty set. -/
def RangeSet.last (set : RangeSet) : Option Nat := set.iter.getLast?.bind fun range => subChecked range.2 1

/-- The order on an `Option<Instant>`, in which `None` comes first. -/
def earlier : Option Int → Option Int → Bool
  | none, some _ => true
  | some left, some right => left < right
  | _, none => false

/-- `loss_time_and_space` -/
def lossTimeAndSpace (lossTime : Epoch → Option Int) : Option Int × Epoch := [.handshake, .application].foldl
    (fun (time, epoch) e =>
      if time.isNone || earlier (lossTime e) time then (lossTime e, e) else (time, epoch))
    (lossTime .initial, .initial)

/-- The loop of `pto_time_and_space` over the packet number spaces, of which `inFlight` says
how many packets are in flight, and `lastSent` when the last one that asks for an
acknowledgement was sent. -/
def ptoTimeAndSpace (inFlight : Epoch → Nat) (lastSent : Epoch → Option Int) (completed : Bool)
    (duration maxAckDelay : Nat) : List Epoch → Option Int → Epoch → Option Int × Epoch
  | [], timeout, space => (timeout, space)
  | epoch :: rest, timeout, space =>
    if inFlight epoch = 0 then ptoTimeAndSpace inFlight lastSent completed duration maxAckDelay rest timeout space
    -- Skip Application Data until the handshake completes.
    else if epoch = .application ∧ !completed then (timeout, space)
    else
      let duration := if epoch = .application then duration + maxAckDelay else duration
      let time := (lastSent epoch).map fun (sent : Int) => sent + duration
      if timeout.isNone || earlier time timeout then
        ptoTimeAndSpace inFlight lastSent completed duration maxAckDelay rest time epoch
      else ptoTimeAndSpace inFlight lastSent completed duration maxAckDelay rest timeout space

/-- The loop of `detect_and_remove_acked_packets` over the ranges: the packets from the first
one in the range on are acknowledged until one lies past it. `wrap` is where the ring buffer of
the packets wraps around. -/
def ackRanges {Packet Acc : Type} (pktNum : Packet → Nat)
    (ack : Nat → Acc → Packet → Option (Acc × Packet × Bool)) (skipPn : Option Nat) (wrap : Nat) :
    List (Nat × Nat) → Acc → List Packet → Option ((Acc × List Packet) × Except Error Unit)
  | [], acc, packets => some ((acc, packets), .ok ())
  | range :: rest, acc, packets =>
    if skipPn.any fun skipped => range.1 ≤ skipped && skipped < range.2 then
      some ((acc, packets), .error .optimisticAckDetected)
    else do
      let start :=
        -- Usually it will be the first packet.
        if packets.head?.any fun first => range.1 ≤ pktNum first then 0
        else ringBinarySearchBy (fun packet => compare (pktNum packet) range.1) wrap packets
      let (acc, acked) ← sweep (ack range.2) acc (packets.drop start)
      ackRanges pktNum ack skipPn wrap rest acc (packets.take start ++ acked)

end Quiche
