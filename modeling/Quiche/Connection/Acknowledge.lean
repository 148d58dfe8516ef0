import Quiche.Cid.Advertise
import Quiche.Dgram
import Quiche.Packet.Space

namespace Quiche

open Data

/-! One packet number space of a connection: the packets of the peer that arrive in it, and
the ACK frames that are sent for them. -/

/-- A sent packet with an ACK frame, as long as the peer did not acknowledge it. -/
structure Carrier where
  pktNum : Nat
  ranges : RangeSet
  lost : Bool
deriving DecidableEq

structure AckCreated where
  ranges : RangeSet
  processed : List Nat
  acknowledged : List RangeSet
  filled : Bool
deriving DecidableEq

/-- The ACK frame holds only numbers of packets processed by then; as long as the ranges were
never too many, it holds all of them that lie above those the peer knows to be acknowledged. -/
structure AckCreated.Truthful (ack : AckCreated) : Prop where
  sound : ∀ value, Covered ack.ranges.iter value → value ∈ ack.processed
  complete : ack.filled = false →
    ∀ value ∈ ack.processed, PktNumSpace.Above ack.acknowledged value → Covered ack.ranges.iter value

/-- What happened so far; no function of the source reads it.

`entered` are the packets whose frames were looked at, once for each time, `processed` those
that were recorded, `acknowledged` our ACK frames in packets that the peer acknowledged.
`filled` says that the ranges to be acknowledged were once as many as are kept, `owing` that
an ACK-eliciting packet was processed after the last packet with an ACK frame was sent. -/
structure Journal where
  entered : List Nat
  processed : List Nat
  acknowledged : List RangeSet
  created : List AckCreated
  filled : Bool
  owing : Bool
deriving DecidableEq

/-- What the functions below read and write of the connection.

`localError` says whether the error is the application's, and `terminated` that the connection
is draining or closed. `ackedFrames` and `lostFrames` are the ACK frames among those that loss
recovery has ready for the connection. -/
structure Exchange where
  space : PktNumSpace
  dgramEnabled : Bool
  dgramRecvQueue : DatagramQueue
  ids : ConnectionIdentifiers
  localError : Option Bool
  terminated : Bool
  ackedFrames : List RangeSet
  lostFrames : List RangeSet
  flight : List Carrier
  nextPktNum : Nat
  journal : Journal

/-- What the rest of the connection makes of a frame. Each `Done` of a function that
`process_frame` calls is caught there. -/
inductive Verdict where
  | accepted (newlyAcked : List Nat)
  | refused (reason : Error) (terminal : reason ≠ .done)
deriving DecidableEq

/-- A packet that was decrypted. `route` is the answer of the checks between the duplicate
check and the frames (the path, a key update), `malformed` the parser's error behind the
frames, `settled` the answer of what follows once the packet is recorded (a migration). -/
structure Arrival where
  pktNum : Nat
  small : pktNum < 2 ^ 62
  route : Except Error Unit
  frames : List (Frame × Verdict)
  malformed : Option { reason : Error // reason ≠ .done }
  settled : Except Error Unit
  statelessReset : Bool

/-- A packet to be built. `room` is the space left for frames, none when there is none;
`probes` are the PATH_RESPONSE and PATH_CHALLENGE frames to be sent, `others` says that
frames follow after the NEW_CONNECTION_ID frames, and `skipped` counts the packet numbers
that were used elsewhere. -/
structure Departure where
  pktType : PacketType
  room : Option Nat
  cwndAvailable : Nat
  ackElicitRequired : Bool
  pathActive : Bool
  ackDelay : Nat
  probes : List Frame
  others : Bool
  skipped : Nat

namespace ConnectionIdentifiers

/-- The loop of `send_single` over the identifiers to be announced, with the space that is
left; it answers how many frames were pushed. -/
def announceNewScids : List Nat → Nat → EStateM Fault ConnectionIdentifiers Nat
  | [], _ => pure 0
  | seqNum :: rest, left => do
    match (← get).getNewConnectionIdFrameFor seqNum with
    | .error reason => throw (.error reason)
    | .ok frame =>
      match frame.wireLen with
      | none => throw .panic
      | some len =>
        if len ≤ left then
          modify (markAdvertiseNewScidSeq seqNum false)
          let pushed ← announceNewScids rest (left - len)
          pure (pushed + 1)
        else pure 0

end ConnectionIdentifiers

namespace Exchange

abbrev Action := EStateM Fault Exchange

def new (dgramEnabled : Bool) (dgramRecvMaxQueueLen : Nat) (ids : ConnectionIdentifiers) : Exchange where
  space := .new
  dgramEnabled := dgramEnabled
  dgramRecvQueue := .new dgramRecvMaxQueueLen
  ids := ids
  localError := none
  terminated := false
  ackedFrames := []
  lostFrames := []
  flight := []
  nextPktNum := 0
  journal := ⟨[], [], [], [], false, false⟩

section Receive

/-- `on_ack_received`, as far as ACK frames are concerned: the frames of a packet that was
given up before are not handed out again. -/
def onAckReceived (newlyAcked : List Nat) (conn : Exchange) : Exchange :=
  let acked := conn.flight.filter fun carrier => carrier.pktNum ∈ newlyAcked
  { conn with
    flight := conn.flight.filter fun carrier => carrier.pktNum ∉ newlyAcked
    ackedFrames := conn.ackedFrames ++ (acked.filter fun carrier => !carrier.lost).map (·.ranges)
    journal := { conn.journal with acknowledged := acked.map (·.ranges) ++ conn.journal.acknowledged } }

def processDatagram (data : List UInt8) : Action Unit := fun conn =>
  -- Close the connection if DATAGRAMs are not enabled.
  if !conn.dgramEnabled then .error (.error .invalidState) conn
  else
    -- If recv queue is full, discard oldest
    let queue := if conn.dgramRecvQueue.isFull then conn.dgramRecvQueue.pop else conn.dgramRecvQueue
    match queue.push data with
    | .ok queue => .ok ⟨⟩ { conn with dgramRecvQueue := queue }
    | .error reason => .error (.error reason) { conn with dgramRecvQueue := queue }

def processFrame (frame : Frame) (verdict : Verdict) : Action Unit :=
  match frame, verdict with
  | .padding _, _ | .ping _, _ => pure ⟨⟩
  | .datagram data, _ => processDatagram data
  | .ack .., .accepted newlyAcked => modify (onAckReceived newlyAcked)
  | .connectionClose .., .accepted _ | .applicationClose .., .accepted _ =>
    modify fun conn => { conn with terminated := true }
  | _, .accepted _ => pure ⟨⟩
  | _, .refused reason _ => throw (.error reason)

def processFrames (malformed : Option { reason : Error // reason ≠ .done }) :
    List (Frame × Verdict) → Bool → Action Bool
  | [], ackElicited =>
    match malformed with
    | some reason => throw (.error reason.1)
    | none => pure ackElicited
  | (frame, verdict) :: rest, ackElicited => do
    processFrame frame verdict
    processFrames malformed rest (ackElicited || frame.ackEliciting)

def enter (pktNum : Nat) (conn : Exchange) : Exchange :=
  { conn with journal := { conn.journal with entered := pktNum :: conn.journal.entered } }

def recorded (space : PktNumSpace) (pktNum : Nat) (ackElicited : Bool) (conn : Exchange) : Exchange :=
  { conn with
    space := space
    ackedFrames := []
    journal := { conn.journal with
      processed := pktNum :: conn.journal.processed
      filled := conn.journal.filled || decide (space.recvPktNeedAck.len ≥ maxAckRanges)
      owing := conn.journal.owing || ackElicited } }

def finish (pktNum : Nat) (ackElicited : Bool) : Action Unit := fun conn =>
  match (conn.space.stopAcknowledgingAll conn.ackedFrames).bind (·.record pktNum ackElicited) with
  | none => .error .panic conn
  | some space => .ok ⟨⟩ (conn.recorded space pktNum ackElicited)

def answer : Except Error Unit → Action Unit
  | .ok _ => pure ⟨⟩
  | .error reason => throw (.error reason)

def recvSingle (packet : Arrival) : Action Unit := do
  let conn ← get
  if conn.terminated || conn.localError.isSome then throw (.error .done)
  else if conn.space.recvPktNum.contains packet.pktNum then throw (.error .done)
  -- Packets with no frames are invalid.
  else if packet.frames.isEmpty && packet.malformed.isNone then throw (.error .invalidPacket)
  else
    answer packet.route
    modify (enter packet.pktNum)
    let ackElicited ← processFrames packet.malformed packet.frames false
    finish packet.pktNum ackElicited
    answer packet.settled

def close (isApp : Bool) (conn : Exchange) : Exchange :=
  if conn.terminated || conn.localError.isSome then conn else { conn with localError := some isApp }

/-- `recv` with a datagram of one packet. -/
def recv (packet : Arrival) (conn : Exchange) : Option Exchange :=
  match recvSingle packet conn with
  | .ok _ conn => some conn
  | .error (.error .done) conn => some { conn with terminated := conn.terminated || packet.statelessReset }
  -- In case of error processing the incoming packet, close the connection.
  | .error (.error _) conn => some (conn.close false)
  | .error .panic _ => none

end Receive

section Send

def onLostFrames (conn : Exchange) : Exchange :=
  { conn with
    lostFrames := []
    space := { conn.space with ackElicited := conn.space.ackElicited || !conn.lostFrames.isEmpty } }

def createsAck (packet : Departure) (conn : Exchange) : Bool := conn.space.recvPktNeedAck.len > 0 &&
    (conn.space.ackElicited || packet.ackElicitRequired) &&
    (conn.localError.isNone || packet.pktType = .handshake && conn.localError = some true) &&
    packet.pathActive

/-- The length of the ACK frame that goes into a packet with `left` bytes of space, if one does. -/
def ackLen (packet : Departure) (left : Nat) (conn : Exchange) : Option Nat :=
  if conn.createsAck packet then
    (Frame.wireLen (.ack packet.ackDelay conn.space.recvPktNeedAck none)).filter fun len =>
      (conn.space.ackElicited || len < packet.cwndAvailable) && len ≤ left
  else none

def note (conn : Exchange) : Exchange :=
  { conn with
    journal := { conn.journal with
      created := ⟨conn.space.recvPktNeedAck, conn.journal.processed, conn.journal.acknowledged, conn.journal.filled⟩ ::
        conn.journal.created } }

def createAck (packet : Departure) (left : Nat) : Action (Option RangeSet × Nat) := fun conn =>
  if conn.createsAck packet then
    match Frame.wireLen (.ack packet.ackDelay conn.space.recvPktNeedAck none) with
    | none => .error .panic conn
    | some len =>
      if (conn.space.ackElicited || len < packet.cwndAvailable) && len ≤ left then
        .ok (some conn.space.recvPktNeedAck, len) { conn.note with space := { conn.space with ackElicited := false } }
      else .ok (none, 0) conn.note
  else .ok (none, 0) conn

def spaceLeft (packet : Departure) (left len : Nat) : Nat := min (left - len) (packet.cwndAvailable - len)

/-- The frames for path validation, each of which goes into a Short packet if it fits; the
bytes they take. -/
def probesLen : List Frame → Nat → Nat
  | [], _ => 0
  | frame :: rest, left =>
    match frame.wireLen with
    | some len => if len ≤ left then len + probesLen rest (left - len) else probesLen rest left
    | none => probesLen rest left

def probed (packet : Departure) (left : Nat) : Nat :=
  if packet.pktType = .short then probesLen packet.probes left else 0

def announce (packet : Departure) (left : Nat) : Action Nat := fun conn =>
  if packet.pktType = .short && conn.localError.isNone then
    match ConnectionIdentifiers.announceNewScids conn.ids.advertiseNewScidSeqs left conn.ids with
    | .ok pushed ids => .ok pushed { conn with ids := ids }
    | .error fault ids => .error fault { conn with ids := ids }
  else .ok 0 conn

def onPacketSent (packet : Departure) (ack : Option RangeSet) (conn : Exchange) : Exchange :=
  let pktNum := conn.nextPktNum + packet.skipped
  { conn with
    nextPktNum := pktNum + 1
    flight := match ack with
      | some ranges => ⟨pktNum, ranges, false⟩ :: conn.flight
      | none => conn.flight
    journal := { conn.journal with owing := conn.journal.owing && ack.isNone } }

def sendOff (packet : Departure) (ack : Option RangeSet) (quiet : Bool) : Action Unit := fun conn =>
  if ack.isNone && quiet && !packet.others then .error (.error .done) conn
  else .ok ⟨⟩ (conn.onPacketSent packet ack)

/-- What `send_single` builds behind the ACK frame: the frames for path validation, those that
announce identifiers, and any others. -/
def buildRest (packet : Departure) (ack : Option RangeSet) (left : Nat) : Action Unit := do
  let announced ← announce packet (left - probed packet left)
  sendOff packet ack (probed packet left = 0 && announced = 0)

/-- Fills a packet with `left` bytes of space. -/
def fill (packet : Departure) (left : Nat) : Action Unit := do
  let (ack, len) ← createAck packet left
  buildRest packet ack (spaceLeft packet left len)

def sendSingle (packet : Departure) : Action Unit := fun conn =>
  if conn.terminated then .error (.error .done) conn
  else
    match packet.room with
    | none => .error (.error .done) conn.onLostFrames
    | some left => fill packet left conn.onLostFrames

/-- `send` hands an error on to the application and leaves the connection as it is. -/
def send (packet : Departure) (conn : Exchange) : Option Exchange :=
  match sendSingle packet conn with
  | .ok _ conn => some conn
  | .error (.error _) conn => some conn
  | .error .panic _ => none

/-- Loss recovery gives up a packet. -/
def lose (pktNum : Nat) (conn : Exchange) : Exchange :=
  { conn with
    flight := conn.flight.map fun carrier =>
      if carrier.pktNum = pktNum then { carrier with lost := true } else carrier
    lostFrames := conn.lostFrames ++
      (conn.flight.filter fun carrier => carrier.pktNum = pktNum && !carrier.lost).map (·.ranges) }

end Send

inductive Event where
  | recv (packet : Arrival)
  | send (packet : Departure)
  | lose (pktNum : Nat)
  | identify (call : ConnectionIdentifiers.ScidCall)
  | close (isApp : Bool)

def machine : Machine Exchange Event where
  step conn
    | .recv packet => conn.recv packet
    | .send packet => conn.send packet
    | .lose pktNum => some (conn.lose pktNum)
    | .identify call => do
      return { conn with ids := ← ConnectionIdentifiers.scidMachine.step conn.ids call }
    | .close isApp => some (conn.close isApp)

end Exchange

end Quiche
