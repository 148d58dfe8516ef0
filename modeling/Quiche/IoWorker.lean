import Quiche.Path

namespace Quiche

inductive ReleaseTime where
  | immediate
  | at_ (time : Nat)
deriving DecidableEq

structure ReleaseDecision where
  time : ReleaseTime
  allowBurst : Bool
deriving DecidableEq

namespace ReleaseDecision

def equalThreshold : Nat := 50000

/-- The time of the next packet; it will never be in the past. -/
def timeAfter (decision : ReleaseDecision) (now : Nat) : Option Nat :=
  match decision.time with
  | .immediate => none
  | .at_ other => if other > now then some other else none

def canBurst (decision : ReleaseDecision) : Bool := decision.allowBurst

def timeEq (decision other : ReleaseDecision) (now : Nat) : Bool :=
  let delta :=
    match decision.timeAfter now, other.timeAfter now with
    | none, none => 0
    | some t, none | none, some t => t - now
    | some t1, some t2 => if t1 < t2 then t2 - t1 else t1 - t2
  delta ≤ equalThreshold

end ReleaseDecision

namespace IoWorker

def udpMaxSegmentCount : Nat := 64

def udpMaxGsoPacketSize : Nat := 65507

def gsoThreshold : Nat := 1000

/-- The most bytes of a batch that leave no fragment at its end; `none` is the division by zero. -/
def tuneMaxSendSize (segmentSize : Option Nat) (sendQuantum maxCapacity : Nat) : Option Nat :=
  let maxSendBufSize := min sendQuantum maxCapacity
  match segmentSize with
  | none => some maxSendBufSize
  | some 0 => none
  | some mss => some (maxSendBufSize / mss * mss)

/-- A network path, by its local and its peer address. -/
abbrev Route := SocketAddr × SocketAddr

structure SendInfo where
  route : Route
  at_ : Nat

/-- What the connection makes of a buffer that is not empty: a packet that fits, for the path it chooses
where none is asked for, or an error. -/
inductive Sent where
  | packet (write : Nat → List UInt8)
      (fits : ∀ space, 0 < space → 0 < (write space).length ∧ (write space).length ≤ space)
      (route : Route) (at_ : Nat)
  | failed (error : Error)

/-- `send_on_path` on a buffer of `space` bytes. -/
def sendOnPath (sent : Sent) (space : Nat) (route : Option Route) : Except Error (List UInt8 × SendInfo) :=
  if space = 0 then .error .bufferTooShort
  else
    match sent with
    | .packet write _ chosen at_ => .ok (write space, ⟨route.getD chosen, at_⟩)
    | .failed error => .error error

structure Turn where
  sent : Sent
  sendQuantum : Nat
  nextReleaseTime : Option ReleaseDecision

/-- `gcongestion` is the feature of that name. -/
structure WriterConfig where
  localAddr : SocketAddr
  withGso : Bool
  pacingOffload : Bool
  gcongestion : Bool

/-- What else is asked of the connection. It `ended` where it is closed or draining. -/
structure QuicheConnection where
  gcongestionEnabled : Option Bool
  nextReleaseTime : Option ReleaseDecision
  maxReleaseIntoFuture : Nat
  pacingEnabled : Bool
  isEstablished : Bool
  ended : Bool
  localError : Option Nat
  peerAddrs : List SocketAddr

structure WriteState where
  connEstablished : Bool
  bytesWritten : Nat
  segmentSize : Nat
  numPkts : Nat
  txTime : Option Nat
  hasPendingData : Bool
  nextReleaseTime : Option Nat
  selectedPath : Option Route
  pendingPaths : List SocketAddr

/-- The worker within `gather_data_from_quiche_conn`, with the front of the buffer that was written and the
packets there. -/
structure Gathering where
  writeState : WriteState
  segmentSize : Option Nat
  sendInfo : Option SendInfo
  localError : Option Nat
  sentConnCloseTransportErrorCode : Option Nat
  front : List UInt8
  packets : List (List UInt8 × Route)

def internalError : Nat := 1

section Gather

variable (config : WriterConfig) (conn : QuicheConnection)

def selectPath (state : WriteState) : Option Route × WriteState :=
  match state.selectedPath with
  | some route => (some route, state)
  | none =>
    match if state.pendingPaths.length = 0 then conn.peerAddrs else state.pendingPaths with
    | [] => (none, { state with pendingPaths := [] })
    | to_ :: rest => (some (config.localAddr, to_), { state with pendingPaths := rest })

/-- `none` is the panic where the buffer does not reach as far as what was written. -/
def writePacketToBuffer (capacity : Nat) (sent : Sent) (state : Gathering) : Option (Except Error Nat × Gathering) :=
  if state.writeState.bytesWritten > capacity then none
  else
    let room := capacity - state.writeState.bytesWritten
    -- Never let the buffer be longer than segment size, for GSO to function properly.
    let space := min room (state.segmentSize.getD room)
    let (route, writeState) := selectPath config conn state.writeState
    match sendOnPath sent space route with
    | .ok (packet, info) =>
      let first := state.sendInfo.getD info
      some (.ok packet.length, { state with
        sendInfo := some first
        front := state.front ++ packet
        packets := state.packets ++ [(packet, info.route)]
        writeState := { writeState with
          bytesWritten := writeState.bytesWritten + packet.length
          numPkts := writeState.numPkts + 1
          selectedPath := some first.route
          hasPendingData := true } })
    | .error .done =>
      -- Keep writing if there are paths left to try.
      some (.ok 0, { state with
        writeState := { writeState with hasPendingData := decide (writeState.pendingPaths.length > 0) } })
    | .error error =>
      let errorCode := state.localError.getD internalError
      some (.error error, { state with
        writeState := writeState
        localError := if conn.ended then state.localError else some errorCode
        sentConnCloseTransportErrorCode := some errorCode })

def joinsBurst (initialReleaseDecision : Option ReleaseDecision) (now : Nat) (turn : Turn) : Bool :=
  match initialReleaseDecision with
  | none => true
  | some initial => turn.nextReleaseTime.any fun release => release.canBurst || release.timeEq initial now

def goesOn (gcongestionEnabled : Bool) (initialReleaseDecision : Option ReleaseDecision) (now capacity : Nat)
    (turn : Turn) (packetSize : Nat) (state : Gathering) : Option (Bool × Gathering) :=
  -- Flush to network after generating a single packet when GSO is disabled.
  if !config.withGso then some (false, state)
  else
    let tuned :=
      if gcongestionEnabled then some (2 ^ 64 - 1) else tuneMaxSendSize state.segmentSize turn.sendQuantum capacity
    tuned.bind fun maxSendSize =>
      if state.writeState.numPkts = udpMaxSegmentCount ∨ state.writeState.bytesWritten ≥ maxSendSize then
        some (false, state)
      else
        let joins := !gcongestionEnabled || joinsBurst initialReleaseDecision now turn
        match state.segmentSize with
        -- GSO needs packets to have the same size, except for the last one in the buffer.
        | some size =>
          if packetSize ≠ size ∨ packetSize < gsoThreshold then some (false, state) else some (joins, state)
        | none => some (joins, { state with segmentSize := some packetSize })

def gatherLoop (gcongestionEnabled : Bool) (initialReleaseDecision : Option ReleaseDecision) (now capacity : Nat) :
    List Turn → Gathering → Option (Except Error Nat × Gathering)
  -- The connection has nothing more to send.
  | [], state => writePacketToBuffer config conn capacity (.failed .done) state
  | turn :: turns, state =>
    (writePacketToBuffer config conn capacity turn.sent state).bind fun (outcome, state) =>
      match outcome with
      | .ok 0 => some (outcome, state)
      | .error _ => some (outcome, state)
      | .ok packetSize =>
        (goesOn config gcongestionEnabled initialReleaseDecision now capacity turn packetSize state).bind
          fun (more, state) =>
            if more then gatherLoop gcongestionEnabled initialReleaseDecision now capacity turns state
            else some (outcome, state)

def defaultMaxIntoFuture : Nat := 1000000

def gcongestionEnabled : Bool := config.gcongestion || conn.gcongestionEnabled.getD false

def pacingEnabled : Bool := config.pacingOffload && (config.gcongestion || conn.pacingEnabled)

def initialReleaseDecision : Option ReleaseDecision :=
  if gcongestionEnabled config conn then conn.nextReleaseTime.filter fun _ => pacingEnabled config conn else none

def postponed (now : Nat) : Bool :=
  ((initialReleaseDecision config conn).bind (·.timeAfter now)).any (· - now ≥ conn.maxReleaseIntoFuture)

def Gathering.start (writeState : WriteState) : Gathering where
  writeState := { writeState with numPkts := 0, bytesWritten := 0, selectedPath := none }
  segmentSize := none
  sendInfo := none
  localError := conn.localError
  sentConnCloseTransportErrorCode := none
  front := []
  packets := []

def txTime (now : Nat) (sendInfo : Option SendInfo) : Option Nat :=
  if gcongestionEnabled config conn then
    ((initialReleaseDecision config conn).filter fun _ => pacingEnabled config conn).bind (·.timeAfter now)
  else (sendInfo.filter fun _ => pacingEnabled config conn).map (·.at_)

/-- `scale` is `mul_f32(0.8)`. -/
def gatherDataFromQuicheConn (scale : Nat → Nat) (now sendBufLen : Nat) (turns : List Turn) (writeState : WriteState) :
    Option (Except Error Nat × Gathering) :=
  let state := Gathering.start conn writeState
  if postponed config conn now then
    some (.ok 0, { state with writeState := { state.writeState with
      nextReleaseTime := some (now + scale conn.maxReleaseIntoFuture)
      hasPendingData := false } })
  else
    (gatherLoop config conn (gcongestionEnabled config conn) (initialReleaseDecision config conn) now
      (min udpMaxGsoPacketSize sendBufLen) turns state).map fun (outcome, state) =>
        let txTime := txTime config conn now state.sendInfo
        let state := { state with writeState := { state.writeState with
          connEstablished := conn.isEstablished
          txTime := txTime
          segmentSize := state.segmentSize.getD state.writeState.bytesWritten } }
        if !gcongestionEnabled config conn && txTime.any (· - now > defaultMaxIntoFuture) then
          (.ok 0, { state with writeState := { state.writeState with
            nextReleaseTime := some (now + scale defaultMaxIntoFuture)
            hasPendingData := false } })
        else (outcome, state)

end Gather

end IoWorker

end Quiche
