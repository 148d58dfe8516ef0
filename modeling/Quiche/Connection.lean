import Quiche.Cid
import Quiche.Path
import Quiche.Stream.Map

namespace Quiche

def defaultConnectionWindow : Nat := 48 * 1024

def maxStreamOverhead : Nat := 12

structure Config where
  localTransportParams : TransportParams
  statelessResetToken : Option (BitVec 128)
  txCapFactor : Rat
  maxConnectionWindow : Nat
  maxStreamWindow : Nat
  maxAmplificationFactor : Nat
  disableDcidReuse : Bool

inductive Shutdown where
  | read
  | write
deriving DecidableEq

/-- `Frame::StreamHeader`: what a packet remembers of a STREAM frame. -/
structure StreamHeader where
  streamId : Nat
  offset : Nat
  length : Nat
  fin : Bool
deriving DecidableEq

structure Connection where
  isServer : Bool
  localTransportParams : TransportParams
  peerTransportParams : TransportParams
  ids : ConnectionIdentifiers
  paths : PathMap
  streams : StreamMap
  rxData : Nat
  flowControl : FlowControl
  almostFull : Bool
  txCap : Nat
  txCapFactor : Rat
  txBuffered : Nat
  txData : Nat
  maxTxData : Nat
  blockedLimit : Option Nat
  maxAmplificationFactor : Nat
  disableDcidReuse : Bool
  /-- The sizes of the 0-RTT packets that wait for their key, with the addresses that they
  arrived on. -/
  undecryptablePkts : List (Nat × SocketAddr × SocketAddr)

namespace Connection

/-! As for the buffers of a stream, `none` is a panic, and a method returns the new `self`
next to its `Result`. The sums of stream offsets stay far below `2 ^ 64`. -/

/-- A connection before any packet was exchanged. `addressVerified` says that the client
came back with a token. -/
def new (config : Config) (scid : List UInt8) (localAddr peerAddr : SocketAddr)
    (addressVerified isServer : Bool) : Connection :=
  let maxRxData := config.localTransportParams.initialMaxData
  let path := { Path.new localAddr peerAddr true with verifiedPeerAddress := addressVerified }
  { isServer
    localTransportParams := config.localTransportParams
    peerTransportParams := .default
    ids := .new config.localTransportParams.activeConnIdLimit scid 0
      (if isServer then config.statelessResetToken else none)
    paths := .new path config.localTransportParams.activeConnIdLimit isServer
    streams := .new config.localTransportParams.initialMaxStreamsBidi
      config.localTransportParams.initialMaxStreamsUni config.maxStreamWindow
    rxData := 0
    flowControl := .new maxRxData (min (maxRxData / 2 * 3) defaultConnectionWindow)
      config.maxConnectionWindow
    almostFull := false
    txCap := 0
    txCapFactor := config.txCapFactor
    txBuffered := 0
    txData := 0
    maxTxData := 0
    blockedLimit := none
    maxAmplificationFactor := config.maxAmplificationFactor
    disableDcidReuse := config.disableDcidReuse
    undecryptablePkts := [] }

def maxRxData (conn : Connection) : Nat := conn.flowControl.maxData

def getOrCreateStream (conn : Connection) (id : Nat) (locally : Bool) : Except Error (StreamMap × Stream) :=
  conn.streams.getOrCreate id conn.localTransportParams conn.peerTransportParams locally conn.isServer

def addConsumed (conn : Connection) (count : Nat) : Option Connection := do
  let flowControl ← conn.flowControl.addConsumed count
  let update ← flowControl.shouldUpdateMaxData
  return { conn with flowControl, almostFull := conn.almostFull || update }

/-- Recomputes the send capacity; `cwinAvailable` is what the congestion window of the
active path has left, and zero without one. -/
def updateTxCap (conn : Connection) (cwinAvailable : Nat) : Option Connection := do
  let left ← subChecked conn.maxTxData conn.txData
  let cap := min cwinAvailable left
  return { conn with txCap := ((cap : Rat) * conn.txCapFactor).ceil.toNat }

section Frames

/-- `process_frame` for a STREAM frame. -/
def processStream (conn : Connection) (streamId : Nat) (data : RangeBuf) : Option (Connection × Except Error Unit) :=
  -- Peer can't send on our unidirectional streams.
  if !isBidi streamId && isLocal streamId conn.isServer then
    some (conn, .error (.invalidStreamState streamId))
  else do
    let maxRxDataLeft ← subChecked conn.maxRxData conn.rxData
    match conn.getOrCreateStream streamId false with
    -- A stream that was closed and collected: the frame is ignored.
    | .error .done => return (conn, .ok ())
    | .error error => return (conn, .error error)
    | .ok (streams, stream) =>
      let maxOffDelta := data.maxOff - stream.recv.maxOff
      if maxOffDelta > maxRxDataLeft then return ({ conn with streams }, .error .flowControl)
      let (recv, written) ← stream.recv.write data
      let changed := { stream with recv }
      let streams := streams.set streamId changed
      match written with
      | .error error => return ({ conn with streams }, .error error)
      | .ok () =>
        let streams :=
          if !stream.isReadable && changed.isReadable then streams.insertReadable stream.priorityKey
          else streams
        let conn := { conn with streams, rxData := conn.rxData + maxOffDelta }
        -- A draining stream queues nothing for the application to read.
        if stream.recv.isDraining then return (← conn.addConsumed maxOffDelta, .ok ())
        else return (conn, .ok ())

/-- `process_frame` for a RESET_STREAM frame. -/
def processResetStream (conn : Connection) (streamId errorCode finalSize : Nat) :
    Option (Connection × Except Error Unit) :=
  if !isBidi streamId && isLocal streamId conn.isServer then
    some (conn, .error (.invalidStreamState streamId))
  else do
    let maxRxDataLeft ← subChecked conn.maxRxData conn.rxData
    match conn.getOrCreateStream streamId false with
    | .error .done => return (conn, .ok ())
    | .error error => return (conn, .error error)
    | .ok (streams, stream) =>
      let (recv, reset) ← stream.recv.reset errorCode finalSize
      let changed := { stream with recv }
      let streams := streams.set streamId changed
      match reset with
      | .error error => return ({ conn with streams }, .error error)
      | .ok maxOffDelta =>
        if maxOffDelta > maxRxDataLeft then return ({ conn with streams }, .error .flowControl)
        let streams :=
          if !stream.isReadable && changed.isReadable then streams.insertReadable stream.priorityKey
          else streams
        return ({ conn with streams, rxData := conn.rxData + maxOffDelta }, .ok ())

/-- `process_frame` for a STOP_SENDING frame. -/
def processStopSending (conn : Connection) (streamId errorCode : Nat) : Option (Connection × Except Error Unit) :=
  if !isLocal streamId conn.isServer && !isBidi streamId then
    some (conn, .error (.invalidStreamState streamId))
  else
    match conn.getOrCreateStream streamId false with
    | .error .done => some (conn, .ok ())
    | .error error => some (conn, .error error)
    | .ok (streams, stream) => do
      let (send, stopped) ← stream.send.stop errorCode
      match stopped with
      | .error _ => return ({ conn with streams }, .ok ())
      | .ok (finalSize, unsent) =>
        let streams := (streams.set streamId { stream with send }).insertReset streamId errorCode finalSize
        return (
          { conn with
            -- The send capacity is updated later on.
            txData := conn.txData - unsent
            txBuffered := conn.txBuffered - unsent
            streams :=
              if stream.isWritable then streams else streams.insertWritable stream.priorityKey },
          .ok ())

def processMaxData (conn : Connection) (limit : Nat) : Connection :=
  { conn with maxTxData := max conn.maxTxData limit }

/-- `process_frame` for a MAX_STREAM_DATA frame. -/
def processMaxStreamData (conn : Connection) (streamId limit : Nat) : Connection × Except Error Unit :=
  if !isBidi streamId && !isLocal streamId conn.isServer then
    (conn, .error (.invalidStreamState streamId))
  else
    match conn.getOrCreateStream streamId false with
    | .error .done => (conn, .ok ())
    | .error error => (conn, .error error)
    | .ok (streams, stream) =>
      let changed := { stream with send := stream.send.updateMaxData limit }
      let streams := streams.set streamId changed
      let streams :=
        if changed.isFlushable && !stream.isFlushable then streams.insertFlushable stream.priorityKey
        else streams
      let streams := if changed.isWritable then streams.insertWritable stream.priorityKey else streams
      ({ conn with streams }, .ok ())

/-- What `process_peer_transport_params` does besides configuring loss recovery. -/
def processPeerTransportParams (conn : Connection) (peerParams : TransportParams) (cwinAvailable : Nat) :
    Option (Connection × Except Error Unit) := do
  let conn ← { conn with maxTxData := peerParams.initialMaxData }.updateTxCap cwinAvailable
  let conn := { conn with
    streams := (conn.streams.updatePeerMaxStreamsBidi peerParams.initialMaxStreamsBidi)
      |>.updatePeerMaxStreamsUni peerParams.initialMaxStreamsUni }
  match conn.paths.getActivePathId with
  | none => return (conn, .error .invalidState)
  | some _ =>
    return (
      { conn with
        ids := conn.ids.setSourceConnIdLimit peerParams.activeConnIdLimit
        peerTransportParams := peerParams },
      .ok ())

end Frames

section Calls

/-- `stream_recv` into a buffer of `cap` bytes. -/
def streamRecv (conn : Connection) (streamId cap : Nat) : Option (Connection × Except Error (List UInt8 × Bool)) :=
  -- We can't read on our own unidirectional streams.
  if !isBidi streamId && isLocal streamId conn.isServer then
    some (conn, .error (.invalidStreamState streamId))
  else
    match conn.streams.get streamId with
    | none => some (conn, .error (.invalidStreamState streamId))
    | some stream =>
      if !stream.isReadable then some (conn, .error .done)
      else do
        let (recv, emitted) ← stream.recv.emit cap
        let changed := { stream with recv }
        let key := stream.priorityKey
        let streams := conn.streams.set streamId changed
        match emitted with
        | .error error =>
          -- A reset that is now reported may leave nothing to keep the stream for.
          let streams ← streams.collectIf streamId stream.isLocal changed.isComplete
          return ({ conn with streams := streams.removeReadable key }, .error error)
        | .ok (out, fin) =>
          let streams := if ← recv.almostFull then streams.insertAlmostFull streamId else streams
          let streams := if changed.isReadable then streams else streams.removeReadable key
          let streams ← streams.collectIf streamId stream.isLocal changed.isComplete
          let streams :=
            if key.incremental && changed.isReadable then (streams.removeReadable key).insertReadable key
            else streams
          let conn ← { conn with streams }.addConsumed out.length
          return (conn, .ok (out, fin))

/-- Whether the application is told that the peer's limit holds it back. -/
def updateBlocked (streams : StreamMap) (streamId : Nat) (stream : Stream) (isBlocked : Bool) : StreamMap :=
  let maxOff := stream.send.maxOff
  if isBlocked then
    if stream.send.blockedAt ≠ some maxOff then
      (streams.set streamId { stream with send := stream.send.updateBlockedAt (some maxOff) })
        |>.insertBlocked streamId maxOff
    else streams.set streamId stream
  else
    (streams.set streamId { stream with send := stream.send.updateBlockedAt none })
      |>.removeBlocked streamId

/-- `stream_do_send` for `len` bytes. `writeFn` writes as many of them as it is allowed to,
and says how many these were. -/
def streamDoSend {Result : Type} (conn : Connection) (streamId len : Nat) (fin : Bool)
    (writeFn : SendBuf → Nat → Bool → Option (SendBuf × Except Error (Nat × Result))) :
    Option (Connection × Except Error Result) :=
  -- We can't write on the peer's unidirectional streams.
  if !isBidi streamId && !isLocal streamId conn.isServer then
    some (conn, .error (.invalidStreamState streamId))
  else do
    let left ← subChecked conn.maxTxData conn.txData
    let conn := { conn with
      blockedLimit := if left < len then some conn.maxTxData else conn.blockedLimit }
    match conn.getOrCreateStream streamId true with
    | .error error => return (conn, .error error)
    | .ok (streams, stream) =>
      let key := stream.priorityKey
      if conn.txCap = 0 ∧ len > 0 then
        let streams := if stream.isWritable then streams.insertWritable key else streams
        return ({ conn with streams }, .error .done)
      let blockedByCap := decide (conn.txCap < len)
      let cap := min conn.txCap len
      let fin := !blockedByCap && fin
      let (send, written) ← writeFn stream.send cap fin
      let changed := { stream with send }
      match written with
      | .error error =>
        return ({ conn with streams := (streams.set streamId changed).removeWritable key }, .error error)
      | .ok (sent, result) =>
        let emptyFin := len == 0 && fin
        let writable := changed.isWritable
        let streams := updateBlocked streams streamId changed (sent < cap)
        -- A zero-length frame with the FIN flag counts as flushable, too.
        let streams :=
          if (changed.isFlushable || emptyFin) && !stream.isFlushable then streams.insertFlushable key
          else streams
        let streams :=
          if !writable then streams.removeWritable key
          else if stream.isWritable && blockedByCap then streams.insertWritable key
          else streams
        let txCap ← subChecked conn.txCap sent
        let conn := { conn with
          txCap, txData := conn.txData + sent, txBuffered := conn.txBuffered + sent }
        if sent = 0 ∧ cap > 0 then return ({ conn with streams }, .error .done)
        let streams :=
          if stream.incremental && writable then (streams.removeWritable key).insertWritable key
          else streams
        return ({ conn with streams }, .ok result)

def streamSend (conn : Connection) (streamId : Nat) (buf : List UInt8) (fin : Bool) :
    Option (Connection × Except Error Nat) := conn.streamDoSend streamId buf.length fin fun send cap fin => do
    let (send, written) ← send.write (buf.take cap) fin
    return (send, written.map fun sent => (sent, sent))

/-- `stream_send_zc`; also yields the part of `buf` that was not taken. -/
def streamSendZc (conn : Connection) (streamId : Nat) (buf : List UInt8) (len : Option Nat) (fin : Bool) :
    Option (Connection × Except Error (Nat × Option (List UInt8))) :=
  conn.streamDoSend streamId buf.length fin fun send cap fin => do
    let (send, written) ← send.appendBuf buf (min (len.getD usizeMax) cap) fin
    return (send, written.map fun (sent, remaining) => (sent, (sent, remaining)))

def streamPriority (conn : Connection) (streamId : Nat) (urgency : UInt8) (incremental : Bool) :
    Connection × Except Error Unit :=
  match conn.getOrCreateStream streamId true with
  | .error .done => (conn, .ok ())
  | .error error => (conn, .error error)
  | .ok (streams, stream) =>
    if stream.urgency = urgency ∧ stream.incremental = incremental then ({ conn with streams }, .ok ())
    else
      let key := ⟨urgency, incremental, streamId⟩
      let changed := { stream with urgency, incremental, priorityKey := key }
      ({ conn with streams := (streams.set streamId changed).updatePriority stream.priorityKey key }, .ok ())

def streamShutdown (conn : Connection) (streamId : Nat) (direction : Shutdown) (err cwinAvailable : Nat) :
    Option (Connection × Except Error Unit) :=
  match direction with
  | .read =>
    -- Don't try to stop a local unidirectional stream.
    if isLocal streamId conn.isServer && !isBidi streamId then
      some (conn, .error (.invalidStreamState streamId))
    else
      match conn.streams.get streamId with
      | none => some (conn, .error .done)
      | some stream =>
        match stream.recv.shutdown with
        | (_, .error error) => some (conn, .error error)
        | (recv, .ok ()) =>
          let streams := conn.streams.set streamId { stream with recv }
          let streams := if recv.isFin then streams else streams.insertStopped streamId err
          some ({ conn with streams := streams.removeReadable stream.priorityKey }, .ok ())
  | .write =>
    -- Don't try to reset a remote unidirectional stream.
    if !isLocal streamId conn.isServer && !isBidi streamId then
      some (conn, .error (.invalidStreamState streamId))
    else
      match conn.streams.get streamId with
      | none => some (conn, .error .done)
      | some stream => do
        let (send, shut) ← stream.send.shutdown
        match shut with
        | .error error => return (conn, .error error)
        | .ok (finalSize, unsent) =>
          let streams := conn.streams.set streamId { stream with send }
          let conn ← { conn with
            txData := conn.txData - unsent
            txBuffered := conn.txBuffered - unsent
            streams := (streams.insertReset streamId err finalSize).removeWritable
              stream.priorityKey }.updateTxCap cwinAvailable
          return (conn, .ok ())

end Calls

section Packets

/-- What `recv_single` does for a STREAM frame that was acknowledged. -/
def ackedStream (conn : Connection) (streamId offset length : Nat) : Option Connection :=
  match conn.streams.get streamId with
  | none => some conn
  | some stream => do
    let changed := { stream with send := ← stream.send.ackAndDrop offset length }
    let streams := conn.streams.set streamId changed
    -- A readable stream gets collected when it is read.
    let streams ← streams.collectIf streamId stream.isLocal (changed.isComplete && !changed.isReadable)
    return { conn with streams, txBuffered := conn.txBuffered - length }

/-- What `recv_single` does for a RESET_STREAM frame that was acknowledged. -/
def ackedResetStream (conn : Connection) (streamId : Nat) : Option Connection :=
  match conn.streams.get streamId with
  | none => some conn
  | some stream => do
    let streams ← conn.streams.collectIf streamId stream.isLocal (stream.isComplete && !stream.isReadable)
    return { conn with streams }

/-- What `send_single` does for a STREAM frame that was lost. -/
def lostStream (conn : Connection) (lost : StreamHeader) : Option Connection :=
  match conn.streams.get lost.streamId with
  | none => some conn
  | some stream => do
    let emptyFin := lost.length == 0 && lost.fin
    let changed := { stream with send := ← stream.send.retransmit lost.offset lost.length }
    let streams := conn.streams.set lost.streamId changed
    let streams :=
      if (changed.isFlushable || emptyFin) && !stream.isFlushable then
        streams.insertFlushable stream.priorityKey
      else streams
    return { conn with streams }

def streamHeaderLen (streamId offset : Nat) : Option Nat := do
  return 1 + (← varintLen streamId) + (← varintLen offset) + 2

/-- The `while` loop of `send_single` over the flushable streams. Every turn but the last
takes a key out of the queue, so the number of keys bounds the turns. -/
def flushStreams : Nat → StreamMap → Nat → Option (StreamMap × Option StreamHeader)
  | 0, streams, _ => if streams.peekFlushable.isNone then some (streams, none) else none
  | fuel + 1, streams, left =>
    match streams.peekFlushable with
    | none => some (streams, none)
    | some key =>
      let streamId := key.id
      match streams.get streamId with
      | none => flushStreams fuel (streams.removeFlushable key) left
      | some stream =>
        -- Avoid sending frames for streams that were already stopped.
        if stream.send.isStopped then flushStreams fuel (streams.removeFlushable key) left
        else do
          let offset := stream.send.offFront
          let hdrLen ← streamHeaderLen streamId offset
          if left < hdrLen then
            flushStreams fuel (streams.removeFlushable stream.priorityKey) left
          else
            let (send, out, fin) ← stream.send.emit (left - hdrLen)
            let changed := { stream with send }
            let streams := streams.set streamId changed
            let key := stream.priorityKey
            let streams :=
              if !changed.isFlushable then streams.removeFlushable key
              else if stream.incremental then (streams.removeFlushable key).insertFlushable key
              else streams
            return (streams, some ⟨streamId, offset, out.length, fin⟩)

/-- The part of `send_single` that creates a STREAM frame in a packet with `left` bytes of
space. -/
def sendStream (conn : Connection) (left : Nat) : Option (Connection × Option StreamHeader) :=
  if left > maxStreamOverhead then do
    let (streams, sent) ← flushStreams conn.streams.flushable.length conn.streams left
    return ({ conn with streams }, sent)
  else some (conn, none)

end Packets

end Connection

end Quiche
